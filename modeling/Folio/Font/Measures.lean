import Folio.Font.Sfnt

/-!
# Measures of a font

The tables that say how large the glyphs of a font are: the units of its grid, its box, its line,
and how far each glyph advances.
-/

set_option autoImplicit false

namespace Folio.Sfnt

/-! ### General facts -/

/-- The general facts of a font. -/
structure Head where
  unitsPerEm : Nat
  /-- The box around all glyphs: left, bottom, right, top. -/
  box : List Int

def Head.ofTable? (table : ByteArray) : Option Head := do
  if !holds table 0 54 then none
  let unitsPerEm ← word? table 18
  let box ← [36, 38, 40, 42].mapM (signedWord? table)
  let format ← word? table 50
  if 16 ≤ unitsPerEm ∧ unitsPerEm ≤ 16384 ∧ format ≤ 1 then return { unitsPerEm, box }
  none

/-! ### Horizontal measures -/

/-- The measures of horizontal lines. -/
structure HorizontalHeader where
  ascent : Int
  descent : Int
  /-- How many glyphs have an advance of their own. -/
  metrics : Nat

def HorizontalHeader.ofTable? (table : ByteArray) : Option HorizontalHeader := do
  if !holds table 0 36 then none
  return { ascent := ← signedWord? table 4, descent := ← signedWord? table 6
           metrics := ← word? table 34 }

/-- How many glyphs a font has. -/
def glyphCount? (table : ByteArray) : Option Nat := do
  let version ← long? table 0
  let count ← word? table 4
  if (version = 0x5000 ∨ version = 0x10000) ∧ count ≠ 0 then return count
  none

/-- The advances of the glyphs that have one of their own, if the table holds them all. -/
def ownAdvances? (metrics : Nat) (table : ByteArray) : Option (Array Nat) :=
  if metrics = 0 ∨ !holds table 0 (metrics * 4) then none
  else some ((Array.range metrics).map fun i => (word? table (i * 4)).getD 0)

/-- The advance of a glyph: its own, or that of the last glyph that has one. -/
def advanceOf (own : Array Nat) (glyph : Nat) : Nat :=
  own.getD (min glyph (own.size - 1)) 0

/-! ### Typographic measures -/

/-- The measures that a typesetting system prefers. -/
structure Typographic where
  /-- Whether they take the place of the horizontal measures. -/
  preferred : Bool
  ascent : Int
  descent : Int
  windowsAscent : Int
  windowsDescent : Int
  capHeight? : Option Int

/-- How long the table is in each of its versions. -/
def Typographic.length? : Nat → Option Nat
  | 0 => some 78
  | 1 => some 86
  | 2 => some 96
  | 3 => some 96
  | 4 => some 96
  | 5 => some 100
  | _ => none

def Typographic.ofTable? (table : ByteArray) : Option Typographic := do
  let version ← word? table 0
  let length ← length? version
  if !holds table 0 length then none
  let selection ← word? table 62
  return {
    preferred := 4 ≤ version && selection / 128 % 2 = 1
    ascent := ← signedWord? table 68
    descent := ← signedWord? table 70
    windowsAscent := ← signedWord? table 74
    -- the depth below the line, so the opposite of a height
    windowsDescent := signed ((0x10000 - (← word? table 76)) % 0x10000)
    capHeight? := if 2 ≤ version then signedWord? table 88 else none }

/-- A measure of the line: the typographic one where it is preferred, else the horizontal one, and
where that is zero the first of the others that is not. -/
def lineMeasure (horizontal : Int) (typographic? : Option Typographic)
    (typographic windows : Typographic → Int) : Int :=
  match typographic? with
  | none => horizontal
  | some t =>
    if t.preferred then typographic t
    else if horizontal ≠ 0 then horizontal
    else if typographic t ≠ 0 then typographic t
    else windows t

end Folio.Sfnt
