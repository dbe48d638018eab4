import Folio.Layout.Content
import Folio.Layout.Pagination
import Folio.Proofs.Breaking
import Folio.Proofs.Replacing

/-!
# Layout keeps the text

Breaking a text into lines keeps its characters that are not blank, in their order, whatever the
widths of the characters and of the column are (`visible_wrapText`). Dividing lines among pages
keeps the lines themselves (`flatten_paginate`).
-/

set_option autoImplicit false

namespace Folio

/-! ## What can be seen of a text -/

namespace Text

/-- The characters of a text that are not blank. -/
def visible (text : List Char) : List Char := text.filter fun c => !isBlank c

@[simp] theorem visible_nil : visible [] = [] := rfl

@[simp] theorem visible_append (a b : List Char) : visible (a ++ b) = visible a ++ visible b :=
  List.filter_append _ _

theorem visible_cons_blank {c : Char} (h : isBlank c = true) (cs : List Char) :
    visible (c :: cs) = visible cs := by
  simp [visible, h]

theorem visible_cons (c : Char) (cs : List Char) : visible (c :: cs) = visible [c] ++ visible cs :=
  visible_append [c] cs

theorem visible_dropWhile (text : List Char) : visible (text.dropWhile isBlank) = visible text := by
  induction text with
  | nil => rfl
  | cons c cs ih =>
    rw [List.dropWhile_cons]
    split
    · rename_i hc
      rw [ih, visible_cons_blank hc]
    · rfl

theorem visible_reverse (text : List Char) : visible text.reverse = (visible text).reverse :=
  List.filter_reverse

@[simp] theorem visible_trim (text : List Char) : visible (trim text) = visible text := by
  rw [trim, trimEnd, trimStart, visible_reverse, visible_dropWhile, visible_reverse,
    List.reverse_reverse, visible_dropWhile]

/-- Texts may be broken into lines one by one. -/
theorem visible_flatMap {lines : List Char → List (List Char)}
    (h : ∀ text, visible (lines text).flatten = visible text) (texts : List (List Char)) :
    visible (texts.flatMap lines).flatten = visible texts.flatten := by
  induction texts with
  | nil => rfl
  | cons text texts ih =>
    rw [List.flatMap_cons, List.flatten_append, visible_append, h, ih, List.flatten_cons,
      visible_append]

/-- Cutting a text at blanks loses nothing that can be seen. -/
theorem visible_splitWhere {cut : Char → Bool} (h : ∀ c, cut c = true → isBlank c = true)
    (text : List Char) : visible (splitWhere cut text).flatten = visible text := by
  induction text with
  | nil => rfl
  | cons c cs ih =>
    unfold splitWhere
    split
    · rename_i hc
      rw [List.flatten_cons, List.nil_append, ih, visible_cons_blank (h c hc)]
    · split
      · rename_i hnil
        exact absurd hnil (splitWhere_ne_nil cut cs)
      · rename_i piece pieces hs
        rw [hs, List.flatten_cons] at ih
        rw [List.flatten_cons, List.cons_append, visible_cons, ih, ← visible_cons]

/-- A pattern of blanks may be replaced by other blanks. -/
theorem Replaces.visible_eq {pattern replacement text result : List Char}
    (h : Replaces pattern replacement text result) (hpattern : visible pattern = [])
    (hreplacement : visible replacement = []) : visible result = visible text := by
  induction h with
  | nil => rfl
  | copied other rest ih => rw [visible_cons, ih, ← visible_cons]
  | replaced rest ih => rw [visible_append, visible_append, hpattern, hreplacement, ih]

end Text

/-! ## Lines -/

namespace Column

open Text

variable (fits : Line → Bool)

/-- Breaking at characters keeps them all. -/
theorem flatten_charLinesFrom (line : Line) (cs : List Char) :
    (charLinesFrom fits line cs).flatten = line ++ cs := by
  induction cs generalizing line with
  | nil =>
    rw [charLinesFrom_nil]
    split
    · simp_all
    · simp
  | cons c cs ih =>
    rw [charLinesFrom_cons]
    split
    · rw [ih, List.append_assoc, List.singleton_append]
    · split
      · rename_i hl
        rw [ih, List.isEmpty_iff.1 hl]
        rfl
      · rw [List.flatten_cons, ih, List.singleton_append]

theorem flatten_charLines (text : List Char) : (charLines fits text).flatten = text :=
  flatten_charLinesFrom fits [] text

theorem visible_append_word (line word : Line) :
    visible (append line word) = visible line ++ visible word := by
  unfold append
  split
  · rename_i hl
    rw [List.isEmpty_iff.1 hl]
    rfl
  · rw [visible_append, visible_cons_blank (by decide)]

/-- Breaking between words keeps what can be seen of them. -/
theorem visible_wordLinesFrom (line : Line) (words : List (List Char)) :
    visible (wordLinesFrom fits line words).flatten = visible (line ++ words.flatten) := by
  have hbefore (line : Line) : (if line.isEmpty then [] else [line]).flatten = line := by
    split
    · simp_all
    · simp
  induction words generalizing line with
  | nil => simp only [wordLinesFrom_nil, hbefore, List.flatten_nil, List.append_nil]
  | cons word words ih =>
    have hb := hbefore line
    rw [wordLinesFrom_cons]
    generalize (if line.isEmpty then [] else [line]) = before at hb ⊢
    split
    · rw [ih, visible_append, visible_append_word, visible_append, List.flatten_cons,
        visible_append, List.append_assoc]
    · split
      · rw [List.flatten_append, hb, visible_append, ih, ← visible_append, List.flatten_cons]
      · rw [List.flatten_append, List.flatten_append, hb, flatten_charLines, visible_append,
          ih, List.nil_append, ← visible_append, List.flatten_cons, List.append_assoc]

theorem isBlank_of_isSeparator {c : Char} (h : isSeparator c = true) : isBlank c = true := by
  simp only [isSeparator, Bool.or_eq_true, decide_eq_true_eq] at h
  rcases h with ((((h | h) | h) | h) | h) | h <;> subst h <;> decide

theorem visible_wordLines (text : List Char) :
    visible (wordLines fits text).flatten = visible text := by
  have hfilter (words : List (List Char)) :
      (words.filter fun word => !word.isEmpty).flatten = words.flatten := by
    induction words with
    | nil => rfl
    | cons word words ih => cases word <;> simp [ih]
  rw [wordLines, visible_wordLinesFrom, List.nil_append, words, hfilter,
    visible_splitWhere fun _ => isBlank_of_isSeparator]

theorem visible_paragraphLines (paragraph : List Char) :
    visible (paragraphLines fits paragraph).flatten = visible paragraph := by
  unfold paragraphLines
  split
  · rw [flatten_charLines]
  · exact visible_wordLines fits paragraph

theorem visible_paragraphs (text : List Char) :
    visible (paragraphs text).flatten = visible text := by
  have hcut (c : Char) (hc : (c == '\n') = true) : isBlank c = true := by
    rw [beq_iff_eq.1 hc]
    decide
  rw [paragraphs, List.map_eq_flatMap, visible_flatMap fun text => by simp,
    visible_splitWhere hcut, (replaces_replaceAll (by decide) text).visible_eq (by decide) (by decide)]

theorem visible_textLines (text : List Char) :
    visible (textLines fits text).flatten = visible text := by
  unfold textLines
  split
  · rename_i ht
    rw [← visible_trim text, List.isEmpty_iff.1 ht]
    rfl
  · rw [visible_flatMap, visible_paragraphs]
    intro paragraph
    unfold lineLines
    split
    · rename_i hp
      rw [List.isEmpty_iff.1 hp]
      rfl
    · exact visible_paragraphLines fits paragraph

/-- Breaking a text into lines keeps what can be seen of it. -/
theorem visible_wrapText {column : Column} {text : List Char} {lines : List Line}
    (h : column.wrapText text = .ok lines) : visible lines.flatten = visible text := by
  rw [eq_textLines h false]
  exact visible_textLines _ text

end Column

/-- What stands for a source page: its text, if that is wanted and there is any, and its translation
or the label for none, each behind a header. -/
def contentText (labels : Labels) (includeOriginal : Bool) (page : Page) (translation : String) :
    List Char :=
  (if includeOriginal && page.hasContent then
    labels.originalHeader.toList ++ page.text.toList else []) ++
  labels.translatedHeader.toList ++
  if Text.hasContent translation then translation.toList else labels.emptyPage.toList

namespace Column

variable {column : Column} {labels : Labels} {lines : List Line}

theorem originalLines_cases {page : Page} (h : column.originalLines labels page = .ok lines) :
    ∃ text, column.wrapText page.text.toList = .ok text ∧
      lines = labels.originalHeader.toList :: text ++ [[]] := by
  obtain ⟨text, htext, hlines⟩ := Checked.of_bind h
  exact ⟨text, htext, (Except.ok.inj hlines).symm⟩

theorem translatedLines_cases {translation : String}
    (h : column.translatedLines labels translation = .ok lines) :
    ∃ text, lines = labels.translatedHeader.toList :: text ∧
      if Text.hasContent translation then column.wrapText translation.toList = .ok text
      else text = [labels.emptyPage.toList] := by
  unfold translatedLines at h
  split at h
  · rename_i hcontent
    obtain ⟨text, htext, hlines⟩ := Checked.of_bind h
    exact ⟨text, (Except.ok.inj hlines).symm, by rwa [if_pos hcontent]⟩
  · rename_i hblank
    exact ⟨_, (Except.ok.inj h).symm, by rw [if_neg hblank]⟩

theorem contentLines_cases {includeOriginal : Bool} {page : Page} {translation : String}
    (h : column.contentLines labels includeOriginal page translation = .ok lines) :
    ∃ original translated, lines = original ++ translated ∧
      (if includeOriginal && page.hasContent then column.originalLines labels page = .ok original
        else original = []) ∧
      column.translatedLines labels translation = .ok translated := by
  unfold contentLines at h
  split at h
  · rename_i hwanted
    obtain ⟨original, horiginal, hrest⟩ := Checked.of_bind h
    obtain ⟨translated, htranslated, hlines⟩ := Checked.of_bind hrest
    exact ⟨original, translated, (Except.ok.inj hlines).symm, by rwa [if_pos hwanted], htranslated⟩
  · rename_i hunwanted
    obtain ⟨original, hnone, hrest⟩ := Checked.of_bind h
    obtain ⟨translated, htranslated, hlines⟩ := Checked.of_bind hrest
    cases hnone
    exact ⟨[], translated, (Except.ok.inj hlines).symm, by rw [if_neg hunwanted], htranslated⟩

end Column

theorem visible_contentLines {column : Column} {labels : Labels} {includeOriginal : Bool}
    {page : Page} {translation : String} {lines : List Line}
    (h : column.contentLines labels includeOriginal page translation = .ok lines) :
    Text.visible lines.flatten =
      Text.visible (contentText labels includeOriginal page translation) := by
  obtain ⟨original, translated, rfl, horiginal, htranslated⟩ := Column.contentLines_cases h
  obtain ⟨text, rfl, htext⟩ := Column.translatedLines_cases htranslated
  have hbelow : Text.visible text.flatten = Text.visible
      (if Text.hasContent translation then translation.toList else labels.emptyPage.toList) := by
    split at htext
    · rename_i hcontent
      rw [if_pos hcontent, Column.visible_wrapText htext]
    · rename_i hblank
      rw [if_neg hblank, htext]
      simp
  have habove : Text.visible original.flatten =
      Text.visible (if includeOriginal && page.hasContent then
        labels.originalHeader.toList ++ page.text.toList else []) := by
    split at horiginal
    · rename_i hwanted
      obtain ⟨above, hwrap, rfl⟩ := Column.originalLines_cases horiginal
      rw [if_pos hwanted]
      simp [Column.visible_wrapText hwrap]
    · rename_i hunwanted
      rw [if_neg hunwanted, horiginal]
      rfl
  simp only [contentText, List.flatten_append, List.flatten_cons, Text.visible_append, habove,
    hbelow, List.append_assoc]

/-! ## Pages -/

namespace PageSetup

variable (setup : PageSetup)

theorem fill_append (cursor : Float32) (lines : List Line) :
    (setup.fill cursor lines).1 ++ (setup.fill cursor lines).2 = lines := by
  induction lines generalizing cursor with
  | nil => rfl
  | cons line lines ih =>
    unfold fill
    split
    · rfl
    · exact congrArg (line :: ·) (ih _)

theorem flatten_continuedPages (lines : List Line) :
    (setup.continuedPages lines).flatten = lines := by
  induction lines using continuedPages.induct setup with
  | case1 => simp [continuedPages]
  | case2 line lines ih =>
    rw [continuedPages, List.flatten_cons, ih, List.cons_append, fill_append]

/-- The pages hold the lines, each once and in order. -/
theorem flatten_paginate (lines : List Line) : (setup.paginate lines).flatten = lines := by
  rw [paginate, List.flatten_cons, flatten_continuedPages, fill_append]

end PageSetup

end Folio
