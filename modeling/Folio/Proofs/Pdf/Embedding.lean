import Folio.Pdf.Output
import Folio.Proofs.Pdf.Compression
import Mathlib.Data.List.Induction

/-!
# Embedded fonts

A font takes new objects of its own whenever it is embedded, and touches no other (`embed_keeps`).
The objects that it is embedded with for some characters cover each of them (`IsEmbedded.covers`):
the glyph of a character has a width, and the map of the font leads from the glyph to a character
that is drawn with it.
-/

set_option autoImplicit false

namespace Folio

open Pdf

/-! ## Glyphs -/

namespace UnicodeMap

theorem flatten_blocks {α : Type} (size : Nat) (entries : List α) :
    (blocks size entries).flatten = entries := by
  fun_induction blocks size entries with
  | case1 => rfl
  | case2 entry rest ih => rw [List.flatten_cons, ih, List.cons_append, List.take_append_drop]

/-- Every entry has a line of its own. -/
theorem entryText_infix {entries : List (UInt16 × Char)} {entry : UInt16 × Char}
    (h : entry ∈ entries) : entryText entry <:+: text entries := by
  rw [← flatten_blocks (blockSize - 1) entries] at h
  obtain ⟨block, hblock, hentry⟩ := List.mem_flatten.1 h
  have hline : entryText entry <:+: block.flatMap entryText :=
    List.infix_of_mem_flatten (List.mem_map_of_mem hentry)
  have hlines : block.flatMap entryText <:+: blockText block :=
    ⟨_, _, rfl⟩
  have hblocks : blockText block <:+: (blocks (blockSize - 1) entries).flatMap blockText :=
    List.infix_of_mem_flatten (List.mem_map_of_mem hblock)
  exact ((hline.trans hlines).trans hblocks).trans ⟨_, _, rfl⟩

end UnicodeMap

namespace TrueType

variable (font : TrueType)

theorem glyphOf_drawnChar (c : Char) : font.glyphOf (drawnChar c) = font.glyphOf c := by
  have hdrawn : drawnChar (drawnChar c) = drawnChar c := by
    by_cases hc : c = '\t'
    · subst hc
      rfl
    · simp [drawnChar, hc]
  rw [glyphOf, hdrawn, ← glyphOf]

theorem drawn_concat (used : List Char) (c : Char) :
    font.drawn (used ++ [c]) =
      if font.glyphOf c = 0 then font.drawn used
      else Sorted.insertNew (font.glyphOf c) (drawnChar c) (font.drawn used) := by
  simp [drawn, List.foldl_append]

theorem glyphOf_of_mem_drawn {used : List Char} {entry : UInt16 × Char}
    (h : entry ∈ font.drawn used) : font.glyphOf entry.2 = entry.1 := by
  induction used using List.reverseRecOn with
  | nil => cases h
  | append_singleton used c ih =>
    rw [drawn_concat] at h
    split at h
    · exact ih h
    · rcases Sorted.mem_insertNew h with rfl | h
      · exact font.glyphOf_drawnChar c
      · exact ih h

theorem mem_keys_drawn {used : List Char} {c : Char} (h : c ∈ used) (hglyph : font.glyphOf c ≠ 0) :
    font.glyphOf c ∈ (font.drawn used).map Prod.fst := by
  induction used using List.reverseRecOn with
  | nil => cases h
  | append_singleton used d ih =>
    rw [drawn_concat]
    by_cases hd : font.glyphOf d = 0
    · have hne : c ≠ d := by
        rintro rfl
        exact hglyph hd
      have hc : c ∈ used := by simpa [hne] using h
      rw [if_pos hd]
      exact ih hc
    · obtain ⟨hkept, hkey⟩ :=
        Sorted.insertNew_keeps (font.glyphOf d) (drawnChar d) (font.drawn used)
      rw [if_neg hd]
      rcases List.mem_append.1 h with hc | hc
      · exact List.map_subset _ hkept (ih hc)
      · rw [List.mem_singleton.1 hc]
        exact hkey

/-- Every character that has a glyph leads to it, and back to a character with the same glyph. -/
theorem mem_drawn_of_mem {used : List Char} {c : Char} (h : c ∈ used) (hglyph : font.glyphOf c ≠ 0) :
    ∃ shown, (font.glyphOf c, shown) ∈ font.drawn used ∧ font.glyphOf shown = font.glyphOf c := by
  obtain ⟨entry, hmem, hkey⟩ := List.mem_map.1 (font.mem_keys_drawn h hglyph)
  have hshown : font.glyphOf entry.2 = font.glyphOf c :=
    (font.glyphOf_of_mem_drawn hmem).trans hkey
  exact ⟨entry.2, hkey ▸ hmem, hshown⟩

theorem widths_infix {entries : List (UInt16 × Char)} {entry : UInt16 × Char}
    (h : entry ∈ entries) :
    [.integer entry.1.toNat, .array [.integer (font.glyphWidth entry.1).toNat]] <:+:
      font.widths entries :=
  List.infix_of_mem_flatten (List.mem_map.2 ⟨entry, h, rfl⟩)

end TrueType

/-! ## Embedding -/

namespace Pdf

/-- The kind that a dictionary says it is of. -/
def Object.kind? (object : Object) : Option String :=
  object.dictionary?.bind fun entries => (entries.lookup "Type").bind Object.name?

/-- What a document holds under a number stays there, unless it is of one of some kinds. -/
def Document.Keeps (doc later : Document) (kinds : List String) (n : Nat) : Prop :=
  ∀ object, doc.objects.lookup n = some object → (∀ kind ∈ kinds, object.kind? ≠ some kind) →
    later.objects.lookup n = some object

theorem Document.Keeps.mono {doc later : Document} {kinds more : List String} {n : Nat}
    (h : doc.Keeps later kinds n) (hsub : kinds ⊆ more) : doc.Keeps later more n :=
  fun object hn hkind => h object hn fun kind hmem => hkind kind (hsub hmem)

@[simp] theorem Object.kind?_stream (entries : Dictionary) (content : Bytes) :
    (Object.stream entries content).kind? = none := rfl

end Pdf

namespace TrueType

variable (font : TrueType) (used : List Char)

@[simp] theorem kind?_dictionary (glyphs unicode : Nat) :
    (Object.dictionary (font.dictionary glyphs unicode)).kind? = some "Font" := rfl

@[simp] theorem kind?_glyphFont (drawn : List (UInt16 × Char)) (descriptor : Nat) :
    (font.glyphFont drawn descriptor).kind? = some "Font" := rfl

@[simp] theorem kind?_descriptor (file : Nat) :
    (font.descriptor file).kind? = some "FontDescriptor" := rfl

theorem references_dictionary (glyphs unicode : Nat) :
    (Object.dictionary (font.dictionary glyphs unicode)).references = [glyphs, unicode] := by
  simp [dictionary, Object.references, Object.referencesOfEntries, Object.referencesOfItems]

theorem mem_references_glyphFont (drawn : List (UInt16 × Char)) (descriptor : Nat) :
    descriptor ∈ (font.glyphFont drawn descriptor).references := by
  simp [glyphFont, Object.references, Object.referencesOfEntries]

theorem mem_references_descriptor (file : Nat) : file ∈ (font.descriptor file).references := by
  simp [descriptor, Object.references, Object.referencesOfEntries]

/-- The objects under the new numbers, one after the other. -/
theorem lookup_embed (doc : Document) (n : Nat) :
    (font.embed used doc).2.objects.lookup n =
      if n = doc.lastNumber + 4 then
        some (.stream [] (asciiBytes (UnicodeMap.text (font.drawn used))))
      else if n = doc.lastNumber + 3 then
        some (font.glyphFont (font.drawn used) (doc.lastNumber + 2))
      else if n = doc.lastNumber + 2 then some (font.descriptor (doc.lastNumber + 1))
      else if n = doc.lastNumber + 1 then
        some (.stream [("Length1", .integer font.data.size)] font.data.toList)
      else doc.objects.lookup n := by
  simp only [embed, Document.add, Document.reserve, Document.lookup_set]
  rfl

end TrueType

namespace Font

variable (font : Font) (used : List Char)

/-- The font has its dictionary under a number, and the objects that it needs for characters. -/
def IsEmbedded (doc : Document) (number : Nat) : Prop :=
  match font with
  | .helvetica => doc.objects.lookup number = some (.dictionary helveticaDictionary)
  | .trueType font => ∃ file descriptor glyphs unicode,
    doc.objects.lookup number = some (.dictionary (font.dictionary glyphs unicode)) ∧
    doc.objects.lookup glyphs = some (font.glyphFont (font.drawn used) descriptor) ∧
    doc.Holds unicode [] (asciiBytes (UnicodeMap.text (font.drawn used))) ∧
    doc.objects.lookup descriptor = some (font.descriptor file) ∧
    doc.Holds file [("Length1", .integer font.data.size)] font.data.toList

section
variable {font used} {doc later : Document} {number : Nat}

@[simp] theorem kind?_helveticaDictionary :
    (Object.dictionary helveticaDictionary).kind? = some "Font" := rfl

/-- Its dictionary names the font. -/
theorem IsEmbedded.baseFont (h : font.IsEmbedded used doc number) :
    doc.valueAt? number "Type" = some (.name "Font") ∧
      doc.valueAt? number "BaseFont" = some (.name font.baseFont) := by
  cases font with
  | helvetica =>
    exact ⟨Document.valueAt?_eq_some_iff.2 ⟨_, h, rfl⟩, Document.valueAt?_eq_some_iff.2 ⟨_, h, rfl⟩⟩
  | trueType font =>
    obtain ⟨file, descriptor, glyphs, unicode, h, -⟩ := h
    exact ⟨Document.valueAt?_eq_some_iff.2 ⟨_, h, rfl⟩, Document.valueAt?_eq_some_iff.2 ⟨_, h, rfl⟩⟩

/-- What is under the number is a font. -/
theorem IsEmbedded.kind? (h : font.IsEmbedded used doc number) :
    ∃ object, doc.objects.lookup number = some object ∧ object.kind? = some "Font" := by
  obtain ⟨entries, hlookup, htype⟩ := Document.valueAt?_eq_some_iff.1 h.baseFont.1
  exact ⟨_, hlookup, by simp [Object.kind?, Object.dictionary?, htype, Object.name?]⟩

/-- An embedded font stays embedded where the objects that its dictionary leads to are kept. -/
theorem IsEmbedded.mono (h : font.IsEmbedded used doc number)
    (hkept : ∀ n, doc.Reaches [number] n → doc.Keeps later ["Pages"] n) :
    font.IsEmbedded used later number := by
  have hnumber : doc.Reaches [number] number := .start List.mem_cons_self
  cases font with
  | helvetica => exact hkept number hnumber _ h (by simp)
  | trueType font =>
    obtain ⟨file, descriptor, glyphs, unicode, hdict, hglyphs, hunicode, hdescriptor, hfile⟩ := h
    have hg : doc.Reaches [number] glyphs := .step hnumber hdict
      (by simp [TrueType.references_dictionary])
    have hu : doc.Reaches [number] unicode := .step hnumber hdict
      (by simp [TrueType.references_dictionary])
    have hd : doc.Reaches [number] descriptor :=
      .step hg hglyphs (font.mem_references_glyphFont _ _)
    have hf : doc.Reaches [number] file := .step hd hdescriptor (font.mem_references_descriptor _)
    exact ⟨file, descriptor, glyphs, unicode, hkept _ hnumber _ hdict (by simp),
      hkept _ hg _ hglyphs (by simp), hunicode.of_lookup fun _ _ h => hkept _ hu _ h (by simp),
      hkept _ hd _ hdescriptor (by simp), hfile.of_lookup fun _ _ h => hkept _ hf _ h (by simp)⟩

/-- An embedded font stays embedded where the document is compressed. -/
theorem IsEmbedded.compress (h : font.IsEmbedded used doc number) {library : Library}
    (hlossless : library.Lossless) :
    font.IsEmbedded used (doc.compress library.deflate) number := by
  cases font with
  | helvetica => exact doc.lookup_compress_dictionary _ _ h
  | trueType font =>
    obtain ⟨file, descriptor, glyphs, unicode, hdict, hglyphs, hunicode, hdescriptor, hfile⟩ := h
    exact ⟨file, descriptor, glyphs, unicode, doc.lookup_compress_dictionary _ _ hdict,
      doc.lookup_compress_dictionary _ _ hglyphs, hunicode.compress rfl hlossless,
      doc.lookup_compress_dictionary _ _ hdescriptor, hfile.compress rfl hlossless⟩

/-- Embedding takes new numbers and leaves what is there as it is. -/
theorem embed_keeps (font : Font) (used : List Char) (h : doc.Bounded) :
    (font.embed used doc).2.root = doc.root ∧ (font.embed used doc).2.Bounded ∧
      doc.lastNumber ≤ (font.embed used doc).2.lastNumber ∧
      ∀ n object, doc.objects.lookup n = some object →
        (font.embed used doc).2.objects.lookup n = some object := by
  cases font with
  | helvetica => exact ⟨rfl, h, Nat.le_refl _, fun _ _ hn => hn⟩
  | trueType font =>
    refine ⟨rfl, (((h.add _).add _).add _).add _, Nat.le_add_right doc.lastNumber 4, ?_⟩
    intro n object hn
    have hle : n ≤ doc.lastNumber := h n object hn
    rw [embed, TrueType.lookup_embed]
    rw [if_neg (by omega), if_neg (by omega), if_neg (by omega), if_neg (by omega)]
    exact hn

/-- Where its dictionary is put under a number that was there, the font is embedded. -/
theorem isEmbedded_embed (hnumber : number ≤ doc.lastNumber) :
    font.IsEmbedded used
      ((font.embed used doc).2.set number (.dictionary (font.embed used doc).1)) number := by
  cases font with
  | helvetica =>
    simp only [IsEmbedded, Document.lookup_set, ↓reduceIte]
    rfl
  | trueType font =>
    refine ⟨doc.lastNumber + 1, doc.lastNumber + 2, doc.lastNumber + 3, doc.lastNumber + 4, ?_⟩
    have hnew (k : Nat) (hk : 0 < k) : doc.lastNumber + k ≠ number := by omega
    simp only [embed, Document.Holds, Document.lookup_set, TrueType.lookup_embed,
      hnew 1 Nat.one_pos, hnew 2 (by decide), hnew 3 (by decide), hnew 4 (by decide), ↓reduceIte]
    simp [TrueType.embed, Document.add, Document.reserve, Document.set]

end

/-! ## Coverage -/

/-- The font under a number serves to draw a character and to read it back: if the font is embedded
and has a glyph for the character, the width of the glyph is given, and the map from glyphs to
Unicode has a line for the glyph, with a character that is drawn as the same glyph. -/
def Covers (doc : Document) (number : Nat) (c : Char) : Prop :=
  match font with
  | .helvetica =>
    doc.valueAt? number "Subtype" = some (.name "Type1") ∧
      doc.valueAt? number "BaseFont" = some (.name "Helvetica") ∧
      doc.valueAt? number "Encoding" = some (.name "WinAnsiEncoding")
  | .trueType font => font.glyphOf c ≠ 0 →
    ∃ glyphs unicode widths content shown,
      doc.valueAt? number "DescendantFonts" = some (.array [.reference glyphs]) ∧
      doc.valueAt? glyphs "W" = some (.array widths) ∧
      [.integer (font.glyphOf c).toNat, .array [.integer (font.charWidth c).toNat]] <:+: widths ∧
      doc.valueAt? number "ToUnicode" = some (.reference unicode) ∧
      doc.plainAt? unicode = some content ∧
      font.glyphOf shown = font.glyphOf c ∧
      asciiBytes ('<' :: Text.hexUpper 4 (font.glyphOf c).toNat ++ "> <".toList ++
        (Text.Utf16.units shown).flatMap (Text.hexUpper 4) ++ ">\n".toList) <:+: content

/-- A font covers the characters that it is embedded for. -/
theorem IsEmbedded.covers {font : Font} {used : List Char} {doc : Document} {number : Nat}
    (h : font.IsEmbedded used doc number) {c : Char} (hc : c ∈ used) :
    font.Covers doc number c := by
  cases font with
  | helvetica =>
    exact ⟨Document.valueAt?_eq_some_iff.2 ⟨_, h, rfl⟩, Document.valueAt?_eq_some_iff.2 ⟨_, h, rfl⟩,
      Document.valueAt?_eq_some_iff.2 ⟨_, h, rfl⟩⟩
  | trueType font =>
    intro hglyph
    obtain ⟨file, descriptor, glyphs, unicode, hdict, hglyphs, hunicode, -, -⟩ := h
    obtain ⟨shown, hmem, hshown⟩ := font.mem_drawn_of_mem hc hglyph
    exact ⟨glyphs, unicode, font.widths (font.drawn used),
      asciiBytes (UnicodeMap.text (font.drawn used)), shown,
      Document.valueAt?_eq_some_iff.2 ⟨_, hdict, rfl⟩,
      Document.valueAt?_eq_some_iff.2 ⟨_, hglyphs, rfl⟩, font.widths_infix hmem,
      Document.valueAt?_eq_some_iff.2 ⟨_, hdict, rfl⟩, hunicode.plainAt?, hshown,
      (UnicodeMap.entryText_infix hmem).map _⟩

end Font

end Folio
