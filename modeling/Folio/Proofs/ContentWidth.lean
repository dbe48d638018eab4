import Folio.Font.Helvetica
import Folio.Proofs.Binary.Order
import Folio.Proofs.LineBreaks
import Folio.Proofs.TextWidth
import Folio.Renderer

/-!
# The width of content

The texts of a page are wrapped, but the words that stand beside them are set as they are. In
Helvetica the headers fit a page as wide as US Letter at every font size that is in use; what stands
in place of a blank translation fits only at smaller sizes (`contentLines_stand`).
-/

set_option autoImplicit false

namespace Folio

/-! ## Font sizes -/

/-- A font size is one of three fixed ones, or the requested one where that is in range. -/
theorem sanitizeFontSize_cases (requested : Float32) :
    sanitizeFontSize requested = 6 ∨ sanitizeFontSize requested = 36 ∨
      sanitizeFontSize requested = 12 ∨
        sanitizeFontSize requested = requested ∧ requested.isFinite = true ∧
          ¬ requested < 6 ∧ ¬ 36 < requested := by
  unfold sanitizeFontSize
  by_cases husable : requested.isFinite && 0 < requested
  · simp only [husable, ↓reduceIte]
    have hfinite : requested.isFinite = true := (Bool.and_eq_true_iff.1 husable).1
    by_cases hlow : requested < minFontSize
    · exact .inl (if_pos hlow)
    · rw [if_neg hlow]
      by_cases hhigh : maxFontSize < requested
      · exact .inr (.inl (if_pos hhigh))
      · rw [if_neg hhigh]
        exact .inr (.inr (.inr ⟨rfl, hfinite, hlow, hhigh⟩))
  · simp only [husable, Bool.false_eq_true, ↓reduceIte]
    exact .inr (.inr (.inl (by decide)))

theorem sanitizeFontSize_range (requested : Float32) :
    (sanitizeFontSize requested).isFinite = true ∧ 6 ≤ sanitizeFontSize requested ∧
      sanitizeFontSize requested ≤ 36 := by
  rcases sanitizeFontSize_cases requested with h | h | h | ⟨h, hfinite, hlow, hhigh⟩
  · rw [h]; decide
  · rw [h]; decide
  · rw [h]; decide
  · rw [h]
    have hnumber := Binary32.isNaN_of_isFinite hfinite
    exact ⟨hfinite, Binary32.le_of_not_lt (by decide) hnumber hlow,
      Binary32.le_of_not_lt hnumber (by decide) hhigh⟩

namespace Binary32

/-- A number of thousandths of a size grows with the size. -/
theorem thousandths_mul_le_of_size {n : ℕ} (hn : n < 2 ^ 32) {s t : Float32} (hs : 0 ≤ s)
    (hst : s ≤ t) (hsfinite : s.isFinite) (htfinite : t.isFinite) :
    ofInt n / 1000 * s ≤ ofInt n / 1000 * t := by
  obtain ⟨v, hv⟩ := exists_denotes hs hsfinite
  obtain ⟨w, hw⟩ := exists_denotes (Binary32.le_trans hs hst) htfinite
  have hvw : v ≤ w := (hv.le_iff hw).1 (le_iff_unpack.1 hst)
  have hquotient := denotes_div_thousand hn
  exact (rounds_mul hquotient hv).le (rounds_mul hquotient hw)
    (mul_nonneg hquotient.nonneg hv.nonneg) (mul_le_mul_of_nonneg_left hvw hquotient.nonneg)

end Binary32

namespace Column

variable {column : Column}

/-- What fits at a size fits at every smaller one. -/
theorem fits_of_size_le {line : Line} {size : Float32} (hne : line ≠ [])
    (hcount : column.Counts line) (hsize : 0 ≤ column.fontSize)
    (hle : column.fontSize ≤ size) (hfinite : column.fontSize.isFinite) (hbound : size.isFinite)
    (h : Binary32.ofInt (thousandths column.charWidth line : ℕ) / 1000 * size ≤ column.maxWidth) :
    column.fits line = .ok true := by
  have hwidth := Binary32.thousandths_mul_le_of_size hcount hsize hle hfinite hbound
  rw [fits_eq, if_pos hcount, holds, trueWidth_of_ne_nil hne]
  exact congrArg Except.ok (decide_eq_true (Binary32.le_trans hwidth h))

theorem fits_nil (h : 0 ≤ column.maxWidth) : column.fits [] = .ok true :=
  congrArg Except.ok (decide_eq_true h)

theorem stands_nil (h : 0 ≤ column.maxWidth) : column.Stands [] := .inl (fits_nil h)

theorem stands_wrapText (h : 0 ≤ column.maxWidth) {text : List Char} {lines : List Line}
    (hlines : column.wrapText text = .ok lines) : ∀ line ∈ lines, column.Stands line := by
  intro line hline
  rw [eq_textLines hlines false] at hline
  unfold textLines at hline
  split at hline
  · cases hline
  · obtain ⟨paragraph, -, hmem⟩ := List.mem_flatMap.1 hline
    unfold lineLines at hmem
    split at hmem
    · rw [List.mem_singleton.1 hmem]
      exact stands_nil h
    · exact isSet_answer.1 (stands_paragraphLines _ paragraph line hmem).2

section
variable {labels : Labels} {lines : List Line}

theorem stands_originalLines (h : 0 ≤ column.maxWidth)
    (hheader : column.Stands labels.originalHeader.toList) {page : Page}
    (hlines : column.originalLines labels page = .ok lines) :
    ∀ line ∈ lines, column.Stands line := by
  obtain ⟨text, htext, rfl⟩ := originalLines_cases hlines
  intro line hline
  rcases List.mem_cons.1 hline with rfl | hline
  · exact hheader
  · rcases List.mem_append.1 hline with hline | hline
    · exact stands_wrapText h htext line hline
    · rw [List.mem_singleton.1 hline]
      exact stands_nil h

theorem stands_translatedLines (h : 0 ≤ column.maxWidth)
    (hheader : column.Stands labels.translatedHeader.toList) {translation : String}
    (hlines : column.translatedLines labels translation = .ok lines) :
    ∀ line ∈ lines, column.Stands line ∨
      Text.hasContent translation = false ∧ line = labels.emptyPage.toList := by
  obtain ⟨text, rfl, htext⟩ := translatedLines_cases hlines
  intro line hline
  rcases List.mem_cons.1 hline with rfl | hline
  · exact .inl hheader
  · split at htext
    · exact .inl (stands_wrapText h htext line hline)
    · rename_i hblank
      rw [htext] at hline
      exact .inr ⟨Bool.eq_false_iff.2 hblank, List.mem_singleton.1 hline⟩

/-- Under headers that fit, only the words in place of a blank translation may not. -/
theorem stands_contentLines (h : 0 ≤ column.maxWidth)
    (horiginal : column.Stands labels.originalHeader.toList)
    (htranslated : column.Stands labels.translatedHeader.toList) {includeOriginal : Bool}
    {page : Page} {translation : String}
    (hlines : column.contentLines labels includeOriginal page translation = .ok lines) :
    ∀ line ∈ lines, column.Stands line ∨
      Text.hasContent translation = false ∧ line = labels.emptyPage.toList := by
  obtain ⟨above, below, rfl, habove, hbelow⟩ := contentLines_cases hlines
  intro line hline
  rcases List.mem_append.1 hline with hline | hline
  · split at habove
    · exact .inl (stands_originalLines h horiginal habove line hline)
    · rw [habove] at hline
      cases hline
  · exact stands_translatedLines h htranslated hbelow line hline

theorem emptyPage_mem_contentLines {includeOriginal : Bool} {page : Page} {translation : String}
    (h : ¬ Text.hasContent translation = true)
    (hlines : column.contentLines labels includeOriginal page translation = .ok lines) :
    labels.emptyPage.toList ∈ lines := by
  obtain ⟨above, below, rfl, -, hbelow⟩ := contentLines_cases hlines
  obtain ⟨text, rfl, htext⟩ := translatedLines_cases hbelow
  rw [if_neg h] at htext
  rw [htext]
  simp

end

/-! ## Words that are set as they are -/

/-- A column in Helvetica, at a size that is requested. -/
def helvetica (requested maxWidth : Float32) : Column where
  charWidth := Helvetica.charWidth
  fontSize := sanitizeFontSize requested
  maxWidth := maxWidth

/-- The width of the text on a page of US Letter. -/
def letterWidth : Float32 := PageSize.letter.width - Renderer.margin * 2

section
variable {requested maxWidth : Float32}

theorem fits_helvetica {line : Line} {size : Float32} (hmax : letterWidth ≤ maxWidth)
    (hne : line ≠ []) (hcount : thousandths Helvetica.charWidth line < 2 ^ 32)
    (hle : sanitizeFontSize requested ≤ size) (hfinite : size.isFinite)
    (h : Binary32.ofInt (thousandths Helvetica.charWidth line : ℕ) / 1000 * size ≤ letterWidth) :
    (helvetica requested maxWidth).fits line = .ok true := by
  obtain ⟨hsize, hlow, -⟩ := sanitizeFontSize_range requested
  exact fits_of_size_le hne hcount (Binary32.le_trans (by decide) hlow) hle hsize hfinite
    (Binary32.le_trans h hmax)

/-- The headers fit at every size. -/
theorem fits_headers (requested : Float32) (hmax : letterWidth ≤ maxWidth) :
    (helvetica requested maxWidth).fits ({} : Labels).originalHeader.toList = .ok true ∧
      (helvetica requested maxWidth).fits ({} : Labels).translatedHeader.toList = .ok true := by
  have hhigh := (sanitizeFontSize_range requested).2.2
  constructor
  · exact fits_helvetica hmax (by decide) (by decide) hhigh (by decide) (by decide)
  · exact fits_helvetica hmax (by decide) (by decide) hhigh (by decide) (by decide)

theorem not_stands_emptyPage {column : Column}
    (h : ¬ column.fits ({} : Labels).emptyPage.toList = .ok true) :
    ¬ column.Stands ({} : Labels).emptyPage.toList := by
  rintro (hfits | ⟨c, hc⟩)
  · exact h hfits
  · have hlong : ({} : Labels).emptyPage.toList.length ≠ 1 := by decide
    exact hlong (congrArg List.length hc)

/-- Every line of a page fits or is a single character, save the words that stand in place of a
blank translation. They are not wrapped, as a translation is, and fit only where there is room. -/
theorem contentLines_stand (requested : Float32) (includeOriginal : Bool) (page : Page)
    (translation : String) (hmax : letterWidth ≤ maxWidth) :
    let column := helvetica requested maxWidth
    let emptyPage := ({} : Labels).emptyPage.toList
    (∀ lines, column.contentLines {} includeOriginal page translation = .ok lines →
      (∀ line ∈ lines, column.Stands line ∨
        Text.hasContent translation = false ∧ line = emptyPage) ∧
      ((∀ line ∈ lines, column.Stands line) ↔
        Text.hasContent translation = true ∨ column.fits emptyPage = .ok true)) ∧
    (sanitizeFontSize requested ≤ 27.5 → column.fits emptyPage = .ok true) := by
  intro column emptyPage
  have hzero : 0 ≤ column.maxWidth := Binary32.le_trans (by decide) hmax
  obtain ⟨horiginal, htranslated⟩ := fits_headers requested hmax
  refine ⟨fun lines hlines => ?_, fun hsmall => ?_⟩
  · have hall := stands_contentLines hzero (.inl horiginal) (.inl htranslated) hlines
    refine ⟨hall, fun hstands => ?_, fun hroom line hline => ?_⟩
    · by_contra hneither
      rw [not_or] at hneither
      exact not_stands_emptyPage hneither.2
        (hstands _ (emptyPage_mem_contentLines hneither.1 hlines))
    · rcases hall line hline with h | ⟨hblank, rfl⟩
      · exact h
      · exact .inl (hroom.resolve_left (by simp [hblank]))
  · exact fits_helvetica hmax (by decide) (by decide) hsmall (by decide) (by decide)

end

/-- A page of US Letter without a translation, at the default size. -/
theorem contentLines_stand_blank :
    letterWidth ≤ letterWidth ∧ sanitizeFontSize 12 ≤ 27.5 ∧
      ∃ lines, (helvetica 12 letterWidth).contentLines {} true ⟨1, "Bonjour"⟩ " " = .ok lines ∧
        ∀ line ∈ lines, (helvetica 12 letterWidth).Stands line := by
  have hmax : letterWidth ≤ letterWidth := by decide
  have hsize : sanitizeFontSize 12 ≤ 27.5 := by decide
  obtain ⟨hstands, hsmall⟩ := contentLines_stand 12 true ⟨1, "Bonjour"⟩ " " hmax
  have hlines : (helvetica 12 letterWidth).contentLines {} true ⟨1, "Bonjour"⟩ " " =
      .ok ["Original text".toList, "Bonjour".toList, [], "Translated text".toList,
        "No translatable text detected on this page.".toList] := by decide
  exact ⟨hmax, hsize, _, hlines, (hstands _ hlines).2.2 (.inr (hsmall hsize))⟩

/-- The same without the text of the page, at the greatest size: a line of several characters is
wider than the page. -/
theorem contentLines_overflow :
    ∃ lines, (helvetica 36 letterWidth).contentLines {} false ⟨1, ""⟩ "" = .ok lines ∧
      ∃ line ∈ lines, ¬ (helvetica 36 letterWidth).Stands line := by
  refine ⟨_, rfl, ({} : Labels).emptyPage.toList, by decide, not_stands_emptyPage ?_⟩
  decide

end Column

end Folio
