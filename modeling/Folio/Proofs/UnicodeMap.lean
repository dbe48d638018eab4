import Folio.Proofs.Pdf.Embedding
import Folio.Proofs.Written

/-!
# Text in embedded fonts

Text that is drawn in an embedded font consists of the numbers of glyphs, and the map from glyphs to
Unicode leads back from them. The text of the map is read word by word (`readBlocks`): blocks of
entries, each behind its number of entries, and each entry a code and its characters. What is read
are the glyphs that are drawn, and through them the text comes back (`TrueType.text_extractable`).
-/

set_option autoImplicit false

namespace Folio

open Pdf

namespace UnicodeMap

/-! ## Reading a map -/

/-- The words of a text, between its spaces. -/
def words (content : Bytes) : List Bytes :=
  (content.splitOnP isSpace).filter fun word => !word.isEmpty

/-- A block of entries: how many it announces, and the code and the characters of each. -/
structure Block where
  announced : ℕ
  entries : List (ℕ × List Char)

/-- What a reader keeps between the words of a map: the blocks that it has read, and the word before
or the block that it is in, with the code whose characters are due. -/
inductive Scan where
  | between (blocks : List Block) (last : Bytes)
  | inside (blocks : List Block) (block : Block)
  | behindCode (blocks : List Block) (block : Block) (code : ℕ)

/-- What a reader finds if it takes all of a word. -/
def whole? {α : Type} (reader : Reader α) (word : Bytes) : Option α :=
  match reader word with
  | some (found, []) => some found
  | _ => none

/-- Reads a word. -/
def Scan.step : Scan → Bytes → Option Scan
  | .between blocks last, word =>
    if word = asciiBytes "beginbfchar".toList then
      (whole? readNatural last).map fun announced => .inside blocks ⟨announced, []⟩
    else some (.between blocks word)
  | .inside blocks block, word =>
    if word = asciiBytes "endbfchar".toList then some (.between (blocks ++ [block]) word)
    else (whole? readCode word).map fun code => .behindCode blocks block code
  | .behindCode blocks block code, word =>
    ((whole? readUnits word).bind Text.Utf16.decode?).map fun chars =>
      .inside blocks { block with entries := block.entries ++ [(code, chars)] }

/-- Reads words one after the other. -/
def Scan.through (scan : Scan) (content : Bytes) : Option Scan :=
  (words content).foldlM Scan.step scan

/-- The blocks of entries in the text of a map. -/
def readBlocks (content : Bytes) : Option (List Block) :=
  match (Scan.between [] []).through content with
  | some (.between blocks _) => some blocks
  | _ => none

/-- The text of bytes that are codes of two bytes each, through the entries of a map. -/
def extract (entries : List (ℕ × List Char)) (bytes : Bytes) : Option (List Char) :=
  ((Text.Utf16.ofBytes bytes).mapM fun code => entries.lookup code).map List.flatten

/-! ## Words that are read -/

theorem words_nil : words [] = [] := rfl

/-- Text up to a space and text behind it have their words apart. -/
theorem words_append {space : UInt8} (h : isSpace space = true) (front rest : Bytes) :
    words (front ++ space :: rest) = words front ++ words rest := by
  rw [words, List.splitOnP_append_cons front rest h, List.filter_append, ← words, ← words]

theorem words_eq_singleton {word : Bytes} (hne : word ≠ [])
    (h : ∀ byte ∈ word, isSpace byte = false) : words word = [word] := by
  rw [words, List.splitOnP_eq_singleton h]
  simpa using hne

/-- Text that ends in a space, so that no word goes on behind it. -/
def Ended (content : Bytes) : Prop :=
  ∃ front space, isSpace space = true ∧ content = front ++ [space]

theorem Scan.through_append {content : Bytes} (h : Ended content) (scan : Scan) (rest : Bytes) :
    scan.through (content ++ rest) = (scan.through content).bind fun scan => scan.through rest := by
  obtain ⟨front, space, hspace, rfl⟩ := h
  have hfront : words (front ++ [space]) = words front := by
    rw [words_append hspace, words_nil, List.append_nil]
  have hwords : words (front ++ [space] ++ rest) = words (front ++ [space]) ++ words rest := by
    rw [List.append_assoc, hfront]
    exact words_append hspace front rest
  rw [through, hwords, List.foldlM_append]
  rfl

/-- Outside of blocks nothing is read but the start of one. -/
theorem Scan.through_between (content : Bytes) (h : asciiBytes "beginbfchar".toList ∉ words content)
    (blocks : List Block) (last : Bytes) :
    ∃ final, (between blocks last).through content = some (between blocks final) := by
  unfold through
  generalize words content = ws at h
  induction ws generalizing last with
  | nil => exact ⟨last, rfl⟩
  | cons word ws ih =>
    rw [List.mem_cons, not_or] at h
    have hstep : (between blocks last).step word = some (between blocks word) :=
      if_neg (Ne.symm h.1)
    obtain ⟨final, hfinal⟩ := ih word h.2
    refine ⟨final, ?_⟩
    rw [List.foldlM_cons, hstep]
    exact hfinal

/-! ## Blocks that are read back -/

theorem entryText_eq (entry : UInt16 × Char) :
    entryText entry = unitsText [entry.1.toNat] ++
      ' ' :: (unitsText (Text.Utf16.units entry.2) ++ ['\n']) := by
  simp [entryText, unitsText]

theorem words_unitsText {units : List ℕ} (h : ∀ unit ∈ units, unit < 0x10000) :
    words (asciiBytes (unitsText units)) = [asciiBytes (unitsText units)] :=
  words_eq_singleton (List.cons_ne_nil _ _) (isSpace_unitsText h)

theorem ended_line (line : List Char) : Ended (asciiBytes (line ++ ['\n'])) :=
  ⟨asciiBytes line, 0x0A, by decide, asciiBytes_append _ _⟩

/-- An entry as it is read. -/
def readEntry (entry : UInt16 × Char) : ℕ × List Char := (entry.1.toNat, [entry.2])

/-- A block as it is read. -/
def readBlock (block : List (UInt16 × Char)) : Block := ⟨block.length, block.map readEntry⟩

theorem toNat_lt_of_mem_singleton (glyph : UInt16) : ∀ unit ∈ [glyph.toNat], unit < 0x10000 := by
  simpa using glyph.toNat_lt

theorem words_entryText (entry : UInt16 × Char) :
    words (asciiBytes (entryText entry)) =
      [asciiBytes (unitsText [entry.1.toNat]),
        asciiBytes (unitsText (Text.Utf16.units entry.2))] := by
  have hspace : isSpace (UInt8.ofNat ' '.toNat) = true := by decide
  have hline : isSpace (UInt8.ofNat '\n'.toNat) = true := by decide
  rw [entryText_eq, asciiBytes_append, asciiBytes_cons, words_append hspace, asciiBytes_append,
    asciiBytes_cons, words_append hline, words_unitsText (toNat_lt_of_mem_singleton _),
    words_unitsText (Text.Utf16.units_lt _)]
  rfl

theorem step_code (blocks : List Block) (block : Block) (glyph : UInt16) :
    (Scan.inside blocks block).step (asciiBytes (unitsText [glyph.toNat])) =
      some (.behindCode blocks block glyph.toNat) := by
  have hcode : whole? readCode (asciiBytes (unitsText [glyph.toNat])) = some glyph.toNat := by
    rw [whole?, readCode, readUnits_unitsText (toNat_lt_of_mem_singleton glyph)
      (List.cons_ne_nil _ _)]
  have hne : asciiBytes (unitsText [glyph.toNat]) ≠ asciiBytes "endbfchar".toList := by
    intro heq
    have hend : whole? readCode (asciiBytes "endbfchar".toList) = none := by decide
    rw [heq, hend] at hcode
    cases hcode
  rw [Scan.step, if_neg hne, hcode]
  rfl

theorem step_units (blocks : List Block) (block : Block) (code : ℕ) (c : Char) :
    (Scan.behindCode blocks block code).step (asciiBytes (unitsText (Text.Utf16.units c))) =
      some (.inside blocks { block with entries := block.entries ++ [(code, [c])] }) := by
  have hunits : whole? readUnits (asciiBytes (unitsText (Text.Utf16.units c))) =
      some (Text.Utf16.units c) := by
    rw [whole?, readUnits_unitsText (Text.Utf16.units_lt c) (Text.Utf16.units_ne_nil c)]
  rw [Scan.step, hunits, Option.bind_some, Text.Utf16.decode?_units]
  rfl

/-- An entry is read behind those before it. -/
theorem through_entryText (blocks : List Block) (block : Block) (entry : UInt16 × Char) :
    (Scan.inside blocks block).through (asciiBytes (entryText entry)) =
      some (.inside blocks { block with entries := block.entries ++ [readEntry entry] }) := by
  rw [Scan.through, words_entryText, List.foldlM_cons, step_code, Option.bind_eq_bind,
    Option.bind_some, List.foldlM_cons, step_units]
  rfl

/-- Entries are read one behind the other. -/
theorem through_entries (blocks : List Block) (announced : ℕ) (before : List (ℕ × List Char))
    (entries : List (UInt16 × Char)) (rest : Bytes) :
    (Scan.inside blocks ⟨announced, before⟩).through
        (asciiBytes (entries.flatMap entryText) ++ rest) =
      (Scan.inside blocks ⟨announced, before ++ entries.map readEntry⟩).through rest := by
  induction entries generalizing before with
  | nil =>
    rw [List.map_nil, List.append_nil]
    rfl
  | cons entry entries ih =>
    have hended : Ended (asciiBytes (entryText entry)) := by
      rw [entryText_eq, ← List.cons_append, ← List.append_assoc]
      exact ended_line _
    rw [List.flatMap_cons, asciiBytes_append, List.append_assoc, Scan.through_append hended,
      through_entryText, Option.bind_some, ih, List.append_assoc]
    rfl

theorem words_digits (n : ℕ) :
    words (asciiBytes (Nat.toDigits 10 n)) = [asciiBytes (Nat.toDigits 10 n)] := by
  refine words_eq_singleton (by simp [asciiBytes, Nat.toDigits_ne_nil]) fun byte hbyte => ?_
  obtain ⟨c, hc, rfl⟩ := List.mem_map.1 hbyte
  exact (decimalByte_spec (toDigits_isDigit hc)).2.2

theorem step_number (blocks : List Block) (last : Bytes) (n : ℕ) :
    (Scan.between blocks last).step (asciiBytes (Nat.toDigits 10 n)) =
      some (.between blocks (asciiBytes (Nat.toDigits 10 n))) := by
  refine if_neg fun heq => ?_
  have hnumber := readNatural_toDigits n
  have hnone : readNatural (asciiBytes "beginbfchar".toList) = none := by decide
  rw [heq, hnone] at hnumber
  cases hnumber

theorem step_begin (blocks : List Block) (n : ℕ) :
    (Scan.between blocks (asciiBytes (Nat.toDigits 10 n))).step
      (asciiBytes "beginbfchar".toList) = some (.inside blocks ⟨n, []⟩) := by
  rw [Scan.step, if_pos rfl, whole?, readNatural_toDigits]
  rfl

/-- What announces a number of entries begins a block. -/
theorem through_opening (blocks : List Block) (last : Bytes) (announced : ℕ) (rest : Bytes) :
    (Scan.between blocks last).through
        (asciiBytes (Nat.toDigits 10 announced ++ " beginbfchar\n".toList) ++ rest) =
      (Scan.inside blocks ⟨announced, []⟩).through rest := by
  have hended : Ended (asciiBytes (Nat.toDigits 10 announced ++ " beginbfchar\n".toList)) := by
    have hline := ended_line (Nat.toDigits 10 announced ++ " beginbfchar".toList)
    rwa [List.append_assoc] at hline
  have hopening : words (asciiBytes "beginbfchar\n".toList) =
      [asciiBytes "beginbfchar".toList] := by
    decide
  have hwords : words (asciiBytes (Nat.toDigits 10 announced ++ " beginbfchar\n".toList)) =
      [asciiBytes (Nat.toDigits 10 announced), asciiBytes "beginbfchar".toList] := by
    have hspace : isSpace 0x20 = true := by decide
    have happend := words_append hspace (asciiBytes (Nat.toDigits 10 announced))
      (asciiBytes "beginbfchar\n".toList)
    rw [words_digits, hopening] at happend
    rw [asciiBytes_append]
    exact happend
  rw [Scan.through_append hended, Scan.through, hwords, List.foldlM_cons, step_number,
    Option.bind_eq_bind, Option.bind_some, List.foldlM_cons, step_begin]
  rfl

/-- A block is read behind those before it. -/
theorem through_blockText (blocks : List Block) (last : Bytes) (block : List (UInt16 × Char))
    (rest : Bytes) :
    (Scan.between blocks last).through (asciiBytes (blockText block) ++ rest) =
      (Scan.between (blocks ++ [readBlock block])
        (asciiBytes "endbfchar".toList)).through rest := by
  have hended : Ended (asciiBytes "endbfchar\n".toList) := ended_line "endbfchar".toList
  have hend : (Scan.inside blocks ⟨block.length, block.map readEntry⟩).through
      (asciiBytes "endbfchar\n".toList) =
      some (.between (blocks ++ [readBlock block]) (asciiBytes "endbfchar".toList)) := by
    have hwords : words (asciiBytes "endbfchar\n".toList) = [asciiBytes "endbfchar".toList] := by
      decide
    rw [Scan.through, hwords, List.foldlM_cons, Scan.step, if_pos rfl]
    rfl
  rw [blockText, List.append_assoc, asciiBytes_append, List.append_assoc, through_opening,
    asciiBytes_append, List.append_assoc, through_entries, Scan.through_append hended,
    List.nil_append, hend]
  rfl

theorem through_blocks (blocks : List Block) (last : Bytes) (more : List (List (UInt16 × Char)))
    (rest : Bytes) :
    ∃ last', (Scan.between blocks last).through (asciiBytes (more.flatMap blockText) ++ rest) =
      (Scan.between (blocks ++ more.map readBlock) last').through rest := by
  induction more generalizing blocks last with
  | nil =>
    rw [List.map_nil, List.append_nil]
    exact ⟨last, rfl⟩
  | cons block more ih =>
    obtain ⟨last', hmore⟩ := ih (blocks ++ [readBlock block]) (asciiBytes "endbfchar".toList)
    refine ⟨last', ?_⟩
    rw [List.flatMap_cons, asciiBytes_append, List.append_assoc, through_blockText, hmore,
      List.append_assoc]
    rfl

/-- The blocks that are written are read back. -/
theorem readBlocks_text (entries : List (UInt16 × Char)) :
    readBlocks (asciiBytes (text entries)) =
      some ((UnicodeMap.blocks (blockSize - 1) entries).map readBlock) := by
  obtain ⟨hlast, hnone⟩ : head.toList.getLast? = some '\n' ∧
      asciiBytes "beginbfchar".toList ∉ words (asciiBytes head.toList) := by decide +kernel
  obtain ⟨line, hline⟩ := List.getLast?_eq_some_iff.1 hlast
  have hended : Ended (asciiBytes head.toList) := hline ▸ ended_line line
  obtain ⟨first, hhead⟩ := Scan.through_between (asciiBytes head.toList) hnone [] []
  obtain ⟨last, hblocks⟩ := through_blocks [] first (UnicodeMap.blocks (blockSize - 1) entries)
    (asciiBytes foot.toList)
  obtain ⟨final, hfoot⟩ := Scan.through_between (asciiBytes foot.toList) (by decide +kernel)
    ([] ++ (UnicodeMap.blocks (blockSize - 1) entries).map readBlock) last
  rw [readBlocks, text, List.append_assoc, asciiBytes_append, Scan.through_append hended, hhead,
    Option.bind_some, asciiBytes_append, hblocks, hfoot]
  rfl

theorem length_of_mem_blocks {α : Type} {size : ℕ} {entries block : List α}
    (h : block ∈ UnicodeMap.blocks size entries) : 1 ≤ block.length ∧ block.length ≤ size + 1 := by
  fun_induction UnicodeMap.blocks size entries with
  | case1 => cases h
  | case2 entry rest ih =>
    rcases List.mem_cons.1 h with rfl | h
    · rw [List.length_cons, List.length_take]
      omega
    · exact ih h

/-- Over all blocks, what is read are the entries that were written. -/
theorem entries_readBlock (entries : List (UInt16 × Char)) :
    (((UnicodeMap.blocks (blockSize - 1) entries).map readBlock).flatMap Block.entries) =
      entries.map readEntry := by
  rw [List.flatMap_map]
  conv_rhs => rw [← flatten_blocks (blockSize - 1) entries, List.map_flatten]
  rfl

/-! ## Reading text through a map -/

theorem ofBytes_encode (font : TrueType) (text : List Char) :
    Text.Utf16.ofBytes (font.encode text) = text.map fun c => (font.glyphOf c).toNat := by
  induction text with
  | nil => rfl
  | cons c cs ih =>
    have hlt : (font.glyphOf c).toNat < 0x10000 := (font.glyphOf c).toNat_lt
    have hhigh : (UInt8.ofNat ((font.glyphOf c).toNat / 256)).toNat =
        (font.glyphOf c).toNat / 256 := by
      rw [UInt8.toNat_ofNat', Nat.mod_eq_of_lt (by omega)]
    have hlow : (UInt8.ofNat ((font.glyphOf c).toNat % 256)).toNat =
        (font.glyphOf c).toNat % 256 := by
      rw [UInt8.toNat_ofNat', Nat.mod_eq_of_lt (by omega)]
    have hcode : (font.glyphOf c).toNat / 256 * 256 + (font.glyphOf c).toNat % 256 =
        (font.glyphOf c).toNat := Nat.div_add_mod' _ _
    rw [List.map_cons, ← ih, TrueType.encode, List.flatMap_cons]
    simp only [List.cons_append, List.nil_append, Text.Utf16.ofBytes, hhigh, hlow, hcode]
    rfl

/-- Text comes back if every glyph of it is found with its character. -/
theorem extract_encode {font : TrueType} {entries : List (ℕ × List Char)} {text : List Char}
    (h : ∀ c ∈ text, entries.lookup (font.glyphOf c).toNat = some [TrueType.drawnChar c]) :
    extract entries (font.encode text) = some (text.map TrueType.drawnChar) := by
  rw [extract, ofBytes_encode]
  induction text with
  | nil => rfl
  | cons c cs ih =>
    obtain ⟨hc, hcs⟩ := List.forall_mem_cons.1 h
    obtain ⟨found, hfound, hflat⟩ := Option.map_eq_some_iff.1 (ih hcs)
    rw [List.map_cons, List.mapM_cons, hc, hfound, List.map_cons, ← hflat]
    rfl

end UnicodeMap

namespace TrueType

variable (font : TrueType)

/-- What is drawn as a glyph is a character that was used. -/
theorem exists_of_mem_drawn {used : List Char} {entry : UInt16 × Char}
    (h : entry ∈ font.drawn used) :
    ∃ c ∈ used, font.glyphOf c ≠ 0 ∧ font.glyphOf c = entry.1 ∧ drawnChar c = entry.2 := by
  induction used using List.reverseRecOn with
  | nil => cases h
  | append_singleton used c ih =>
    have hearlier (h : entry ∈ font.drawn used) : ∃ d ∈ used ++ [c], font.glyphOf d ≠ 0 ∧
        font.glyphOf d = entry.1 ∧ drawnChar d = entry.2 := by
      obtain ⟨d, hd, hrest⟩ := ih h
      exact ⟨d, List.mem_append_left _ hd, hrest⟩
    rw [drawn_concat] at h
    split at h
    · exact hearlier h
    · rename_i hglyph
      rcases Sorted.mem_insertNew h with rfl | h
      · exact ⟨c, List.mem_append_right _ List.mem_cons_self, hglyph, rfl, rfl⟩
      · exact hearlier h

theorem ascending_drawn (used : List Char) : Sorted.Ascending (font.drawn used) := by
  induction used using List.reverseRecOn with
  | nil => exact .nil
  | append_singleton used c ih =>
    rw [drawn_concat]
    split
    · exact ih
    · exact ih.insertNew _ _

theorem ascending_readEntry (used : List Char) :
    Sorted.Ascending ((font.drawn used).map UnicodeMap.readEntry) := by
  rw [Sorted.Ascending, List.pairwise_map]
  exact (font.ascending_drawn used).imp UInt16.lt_iff_toNat_lt.1

/-- A used character is found under its glyph, if no other used one is drawn as the same glyph. -/
theorem lookup_drawn {used : List Char} {c : Char} (hc : c ∈ used) (hglyph : font.glyphOf c ≠ 0)
    (hunique : ∀ d ∈ used, font.glyphOf c = font.glyphOf d → drawnChar c = drawnChar d) :
    ((font.drawn used).map UnicodeMap.readEntry).lookup (font.glyphOf c).toNat =
      some [drawnChar c] := by
  obtain ⟨shown, hmem, -⟩ := font.mem_drawn_of_mem hc hglyph
  obtain ⟨d, hd, -, hsame, hshown⟩ := font.exists_of_mem_drawn hmem
  have hchar : shown = drawnChar c := hshown.symm.trans (hunique d hd hsame.symm).symm
  rw [(font.ascending_readEntry used).lookup_eq_some_iff, ← hchar]
  exact List.mem_map_of_mem hmem

/-- The map that a font is embedded with is well formed, whatever the number of glyphs is: blocks
of one to a hundred entries announce as many as they have, and the entries are those of the drawn
glyphs in ascending order. Text in characters that have glyphs of their own comes back through it,
with spaces for tabs. -/
theorem text_extractable (used : List Char) (doc : Document) :
    ∃ number content blocks,
      (font.embed used doc).1.lookup "ToUnicode" = some (.reference number) ∧
      (font.embed used doc).2.objects.lookup number = some (.stream [] content) ∧
      UnicodeMap.readBlocks content = some blocks ∧
      (∀ block ∈ blocks, block.announced = block.entries.length ∧
        1 ≤ block.entries.length ∧ block.entries.length ≤ 100) ∧
      let entries := blocks.flatMap (·.entries)
      (entries.map Prod.fst).Pairwise (· < ·) ∧
      (∀ code, code ∈ entries.map Prod.fst ↔
        ∃ c ∈ used, font.glyphOf c ≠ 0 ∧ (font.glyphOf c).toNat = code) ∧
      ((∀ c ∈ used, ∀ d ∈ used, font.glyphOf c ≠ 0 → font.glyphOf c = font.glyphOf d →
          drawnChar c = drawnChar d) →
        ∀ text : List Char, (∀ c ∈ text, c ∈ used ∧ font.glyphOf c ≠ 0) →
          UnicodeMap.extract entries (font.encode text) = some (text.map drawnChar)) := by
  refine ⟨doc.lastNumber + 4, _, _, rfl, ?_, UnicodeMap.readBlocks_text (font.drawn used), ?_, ?_⟩
  · rw [lookup_embed, if_pos rfl]
  · intro block hblock
    obtain ⟨written, hwritten, rfl⟩ := List.mem_map.1 hblock
    have hlength : (UnicodeMap.readBlock written).entries.length = written.length :=
      List.length_map _
    rw [hlength]
    exact ⟨rfl, UnicodeMap.length_of_mem_blocks hwritten⟩
  intro entries
  have hentries : entries = (font.drawn used).map UnicodeMap.readEntry :=
    UnicodeMap.entries_readBlock _
  have hcodes : entries.map Prod.fst = (font.drawn used).map fun entry => entry.1.toNat := by
    rw [hentries, List.map_map]
    rfl
  refine ⟨?_, fun code => ?_, fun hunique text htext => ?_⟩
  · rw [hentries]
    exact List.pairwise_map.2 (font.ascending_readEntry used)
  · rw [hcodes, List.mem_map]
    constructor
    · rintro ⟨entry, hmem, rfl⟩
      obtain ⟨c, hc, hglyph, hkey, -⟩ := font.exists_of_mem_drawn hmem
      exact ⟨c, hc, hglyph, congrArg UInt16.toNat hkey⟩
    · rintro ⟨c, hc, hglyph, rfl⟩
      obtain ⟨shown, hmem, -⟩ := font.mem_drawn_of_mem hc hglyph
      exact ⟨_, hmem, rfl⟩
  · rw [hentries]
    refine UnicodeMap.extract_encode fun c hc => ?_
    obtain ⟨hused, hglyph⟩ := htext c hc
    exact font.lookup_drawn hused hglyph fun d hd => hunique c hused d hd hglyph

/-- A tab, a letter and a character that takes two units. -/
theorem text_extractable_tab :
    let clef : Char := Char.ofNat 0x1D11E
    let glyphs : Sfnt.GlyphMap := ((∅ : Sfnt.GlyphMap).insert 0x20 3).insert 0x41 5
    let font : TrueType := {
      baseFont := "F", data := .empty, glyphs := glyphs.insert 0x1D11E 700, advances := #[],
      ascent := 0, descent := 0, capHeight := 0, box := [] }
    let used : List Char := ['\t', 'A', clef]
    (∀ c ∈ used, ∀ d ∈ used, font.glyphOf c ≠ 0 → font.glyphOf c = font.glyphOf d →
      drawnChar c = drawnChar d) ∧
    (∀ c ∈ used, c ∈ used ∧ font.glyphOf c ≠ 0) ∧
    ∃ content blocks, UnicodeMap.readBlocks content = some blocks ∧
      UnicodeMap.extract (blocks.flatMap (·.entries)) (font.encode used) =
        some [' ', 'A', clef] := by
  intro clef glyphs font used
  have htab : font.glyphOf '\t' = 3 := by
    simp [font, glyphs, glyphOf, drawnChar, Std.HashMap.getD_insert]
  have hletter : font.glyphOf 'A' = 5 := by
    simp [font, glyphs, glyphOf, drawnChar, Std.HashMap.getD_insert]
  have hclef : font.glyphOf clef = 700 := by
    have hnumber : (drawnChar clef).toNat = 0x1D11E := by decide
    simp [font, glyphs, glyphOf, hnumber]
  have hunique : ∀ c ∈ used, ∀ d ∈ used, font.glyphOf c ≠ 0 → font.glyphOf c = font.glyphOf d →
      drawnChar c = drawnChar d := by
    simp [used, htab, hletter, hclef]
  have hglyphs : ∀ c ∈ used, c ∈ used ∧ font.glyphOf c ≠ 0 := by
    simp [used, htab, hletter, hclef]
  obtain ⟨number, content, blocks, -, -, hread, -, -, -, htext⟩ :=
    font.text_extractable used .empty
  exact ⟨hunique, hglyphs, content, blocks, hread, htext hunique used hglyphs⟩

end TrueType

end Folio
