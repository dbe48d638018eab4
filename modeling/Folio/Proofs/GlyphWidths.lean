import Folio.Proofs.TextWidth
import Folio.Proofs.UnicodeMap

/-!
# Widths in embedded fonts

The layout measures text character by character. A reader of the document measures the codes that
are drawn, each by its entry in a sparse array of widths or else by a default width (`readWidth`).
Both come to the same for every text in the characters that the font is embedded for
(`TrueType.reads_as_measured`).
-/

set_option autoImplicit false

namespace Folio

open Pdf

namespace Pdf

/-- The whole number that an object is. -/
def Object.integer? : Object → Option ℤ
  | .integer value => some value
  | _ => none

/-- The width of a code in an array of widths. Its entries are a code with the widths of the codes
from there on, or a first and a last code with the width of all between them. -/
def widthAt? (code : ℕ) : List Object → Option ℤ
  | .integer first :: .array widths :: rest =>
    if first ≤ code ∧ code < first + widths.length then
      widths[(code - first).toNat]?.bind Object.integer?
    else widthAt? code rest
  | .integer first :: .integer last :: .integer width :: rest =>
    if first ≤ code ∧ code ≤ last then some width else widthAt? code rest
  | _ => none

/-- The width that a reader takes for a code, from what a document says about the glyphs of a font:
that of the array, or else the default width, which is a full size where none is given. -/
def readWidth (glyphs : Dictionary) (code : ℕ) : ℤ :=
  ((((glyphs.lookup "W").bind Object.array?).bind (widthAt? code)).or
    ((glyphs.lookup "DW").bind Object.integer?)).getD 1000

end Pdf

namespace TrueType

variable (font : TrueType)

/-- The array of widths has the width of each drawn glyph, and of no other. -/
theorem widthAt?_widths (drawn : List (UInt16 × Char)) (glyph : UInt16) :
    widthAt? glyph.toNat (font.widths drawn) =
      if glyph ∈ drawn.map Prod.fst then some ↑(font.glyphWidth glyph).toNat else none := by
  induction drawn with
  | nil => rfl
  | cons entry drawn ih =>
    obtain ⟨first, c⟩ := entry
    have hwidths : font.widths ((first, c) :: drawn) =
        .integer first.toNat :: .array [.integer (font.glyphWidth first).toNat] ::
          font.widths drawn := rfl
    rw [hwidths, widthAt?, List.map_cons]
    by_cases hfirst : glyph = first
    · subst hfirst
      simp [Object.integer?]
    · have hne : glyph.toNat ≠ first.toNat := fun heq => hfirst (UInt16.toNat_inj.1 heq)
      have hother : ¬ ((first.toNat : ℤ) ≤ glyph.toNat ∧
          (glyph.toNat : ℤ) < first.toNat + ([.integer (font.glyphWidth first).toNat] :
            List Object).length) := by
        simp only [List.length_singleton]
        omega
      rw [if_neg hother, ih]
      simp [hfirst]

/-- The width that is read for the code of a used character is the one that it is measured with. A
character that the font lacks has the default width. -/
theorem readWidth_glyphOf {used : List Char} {descriptor : ℕ} {glyphs : Dictionary}
    (hglyphs : font.glyphFont (font.drawn used) descriptor = .dictionary glyphs) {c : Char}
    (hc : c ∈ used) : readWidth glyphs (font.glyphOf c).toNat = (font.charWidth c).toNat := by
  have hwidths : (glyphs.lookup "W").bind Object.array? = some (font.widths (font.drawn used)) := by
    cases hglyphs
    rfl
  have hdefault : (glyphs.lookup "DW").bind Object.integer? = some ↑(font.glyphWidth 0).toNat := by
    cases hglyphs
    rfl
  rw [readWidth, hwidths, hdefault, Option.bind_some, widthAt?_widths, charWidth]
  by_cases hmissing : font.glyphOf c = 0
  · have hundrawn : (0 : UInt16) ∉ (font.drawn used).map Prod.fst := by
      intro hmem
      obtain ⟨entry, hentry, hzero⟩ := List.mem_map.1 hmem
      obtain ⟨d, -, hne, hd, -⟩ := font.exists_of_mem_drawn hentry
      exact hne (hd.trans hzero)
    rw [hmissing, if_neg hundrawn]
    rfl
  · rw [if_pos (font.mem_keys_drawn hc hmissing)]
    rfl

/-- For all text in the characters that a font is embedded for, the widths that a reader takes for
the codes of the text add up to the width that the layout measures. -/
theorem reads_as_measured (used : List Char) (doc : Document) :
    ∃ number glyphs,
      (font.embed used doc).1.lookup "DescendantFonts" = some (.array [.reference number]) ∧
      (font.embed used doc).2.objects.lookup number = some (.dictionary glyphs) ∧
      ∀ text : List Char, (∀ c ∈ text, c ∈ used) →
        ((Text.Utf16.ofBytes (font.encode text)).map (readWidth glyphs)).sum =
          thousandths font.charWidth text := by
  obtain ⟨glyphs, hglyphs⟩ : ∃ glyphs,
      font.glyphFont (font.drawn used) (doc.lastNumber + 2) = .dictionary glyphs := ⟨_, rfl⟩
  refine ⟨doc.lastNumber + 3, glyphs, rfl, ?_, fun text htext => ?_⟩
  · rw [lookup_embed, if_neg (by omega), if_pos rfl, hglyphs]
  · have hread : ∀ c ∈ text, readWidth glyphs (font.glyphOf c).toNat = (font.charWidth c).toNat :=
      fun c hc => font.readWidth_glyphOf hglyphs (htext c hc)
    rw [UnicodeMap.ofBytes_encode, List.map_map, thousandths, Nat.cast_list_sum, List.map_map]
    exact congrArg List.sum (List.map_congr_left hread)

/-- A tab, a letter, another letter with the same glyph, a character that the font lacks and one
whose glyph has no advance. -/
theorem reads_as_measured_shared :
    let clef : Char := Char.ofNat 0x1D11E
    let glyphs : Sfnt.GlyphMap :=
      (((∅ : Sfnt.GlyphMap).insert 0x20 3).insert 0x41 5).insert 0xC0 5
    let font : TrueType := {
      baseFont := "F", data := .empty, glyphs := glyphs.insert 0x1D11E 700
      advances := #[500, 0, 0, 250, 0, 722], ascent := 0, descent := 0, capHeight := 0, box := [] }
    let used : List Char := [clef, 'B', 'À', 'A', '\t']
    let text : List Char := ['A', '\t', 'À', 'B', clef]
    (∀ c ∈ text, c ∈ used) ∧
    ∃ number glyphs,
      (font.embed used .empty).2.objects.lookup number = some (.dictionary glyphs) ∧
      ((Text.Utf16.ofBytes (font.encode text)).map (readWidth glyphs)).sum = 2194 := by
  intro clef glyphs font used text
  have htext : ∀ c ∈ text, c ∈ used := by simp [text, used]
  have hmeasured : thousandths font.charWidth text = 2194 := by
    have hletters : font.glyphOf '\t' = 3 ∧ font.glyphOf 'A' = 5 ∧ font.glyphOf 'À' = 5 ∧
        font.glyphOf 'B' = 0 := by
      simp [font, glyphs, glyphOf, drawnChar, Std.HashMap.getD_insert]
    have hclef : font.glyphOf clef = 700 := by
      have hnumber : (drawnChar clef).toNat = 0x1D11E := by decide
      simp [font, glyphs, glyphOf, hnumber]
    simp [text, thousandths, charWidth, hletters, hclef, glyphWidth, font]
  obtain ⟨number, glyphs, -, hglyphs, hread⟩ := font.reads_as_measured used .empty
  exact ⟨htext, number, glyphs, hglyphs, (hread text htext).trans (congrArg _ hmeasured)⟩

end TrueType

end Folio
