import Folio.Prompt
import Folio.Proofs.Replacing
import Folio.Proofs.Splitting
import Mathlib.Data.List.Infix

/-!
# What a system prompt says

The languages stand in the system prompt between fixed words, and the instructions behind them. The
target language and the instructions stand there as they are. The source language is filled in
first, so that the mark of the target language is expanded in it as it is in the template, and
nothing else is (`system_expanded`).
-/

set_option autoImplicit false

namespace Folio

namespace Prompt

/-- What stands in the template for the source language. -/
def sourceMark : String := "\x7bsource_language\x7d"

/-- What stands in the template for the target language. -/
def targetMark : String := "\x7btarget_language\x7d"

/-- The words before the languages. -/
def opening : String :=
  "You are a professional translation assistant. Translate the provided PDF text from "

/-- The words behind the languages. -/
def closing : String :=
  ". Preserve headings, numbering, and paragraph structure. Respond with a JSON object whose keys " ++
  "are the page numbers and whose values are only the translated text. Do not include " ++
  "explanations or additional commentary."

/-- How a source language is named: trimmed, or by a phrase if it is blank or absent. -/
def sourceName : Option String → String
  | some source => if Text.trimmed source = "" then unknownSource else Text.trimmed source
  | none => unknownSource

/-- What an instruction adds to a prompt: a space and the trimmed text, unless it is blank. -/
def addition : Option String → String
  | some extra => if Text.trimmed extra = "" then "" else " " ++ Text.trimmed extra
  | none => ""

/-- The prompt in which the names of two languages stand as they are, with its additions. -/
def filled (source target : String) (deployment caller : Option String) : String :=
  opening ++ source ++ " into " ++ target ++ closing ++ addition deployment ++ addition caller

theorem template_eq : template = opening ++ sourceMark ++ " into " ++ targetMark ++ closing := by
  decide +kernel

/-- A mark is replaced where the languages stand, and not in the words around them. -/
theorem replaceAll_words {mark : List Char} (hbrace : '\x7b' ∈ mark) (hspace : ' ' ∉ mark)
    (hpoint : '.' ∉ mark) (replacement first second : List Char) :
    Text.replaceAll mark replacement
        (opening.toList ++ (first ++ (" into ".toList ++ (second ++ closing.toList)))) =
      opening.toList ++ (Text.replaceAll mark replacement first ++ (" into ".toList ++
        (Text.replaceAll mark replacement second ++ closing.toList))) := by
  have hne : mark ≠ [] := List.ne_nil_of_mem hbrace
  have hopening : opening.toList.getLast? = some ' ' ∧ '\x7b' ∉ opening.toList := by
    decide +kernel
  have hbetween : '\x7b' ∉ " into ".toList := by decide
  have hclosing : closing.toList.head? = some '.' ∧ '\x7b' ∉ closing.toList := by decide +kernel
  rw [Text.replaceAll_between hne (by simp [hopening, hspace]) (by simp [hspace]),
    Text.replaceAll_between hne (by simp [hspace]) (by simp [hclosing, hpoint]),
    Text.replaceAll_of_not_mem hne hbrace hopening.2, Text.replaceAll_of_not_mem hne hbrace hbetween,
    Text.replaceAll_of_not_mem hne hbrace hclosing.2]

/-- The target language is filled in at its mark, and wherever the mark occurs in the source. -/
theorem render_eq (source target : String) :
    render source target =
      opening ++ Text.replaced source targetMark target ++ " into " ++ target ++ closing := by
  have hother : ¬ sourceMark.toList <:+: targetMark.toList := by decide
  rw [← String.toList_inj, render, ← sourceMark, ← targetMark, template_eq]
  simp only [Text.replaced, String.toList_ofList, String.toList_append, List.append_assoc]
  rw [replaceAll_words (by decide) (by decide) (by decide), Text.replaceAll_pattern (by decide),
    Text.replaceAll_of_not_infix (by decide) hother,
    replaceAll_words (by decide) (by decide) (by decide), Text.replaceAll_pattern (by decide)]

theorem append_eq (prompt : String) (extra : Option String) :
    append prompt extra = prompt ++ addition extra := by
  cases extra with
  | none => exact String.append_empty.symm
  | some extra =>
    rw [append, addition, Option.bind_some, Text.nonBlank?_eq]
    by_cases h : Text.trimmed extra = ""
    · rw [if_pos h, if_pos h, String.append_empty]
    · rw [if_neg h, if_neg h]
      exact String.append_assoc

theorem sourceName_eq (source : Option String) :
    (source.bind Text.nonBlank?).getD unknownSource = sourceName source := by
  cases source with
  | none => rfl
  | some source =>
    rw [sourceName, Option.bind_some, Text.nonBlank?_eq]
    by_cases h : Text.trimmed source = ""
    · rw [if_pos h, if_pos h]
      rfl
    · rw [if_neg h, if_neg h]
      rfl

/-- The source language is what the target language is filled into as well. -/
theorem system_eq (source : Option String) (target : String) (deployment caller : Option String) :
    system source target deployment caller =
      filled (Text.replaced (sourceName source) targetMark (Text.trimmed target))
        (Text.trimmed target) deployment caller := by
  rw [system, sourceName_eq, render_eq, append_eq, append_eq, filled]

theorem filled_inj {source other target : String} {deployment caller : Option String} :
    filled source target deployment caller = filled other target deployment caller ↔
      source = other := by
  simp only [filled, String.append_assoc, String.append_right_inj, String.append_left_inj]

/-- Only the mark of the target language is expanded in a caller's text, and only in the name of the
source language. So all texts stand in the prompt as they are exactly if that name does not hold the
mark, or the target language is itself called by it. -/
theorem system_expanded (source : Option String) (target : String)
    (deployment caller : Option String) :
    system source target deployment caller =
        filled (Text.replaced (sourceName source) targetMark (Text.trimmed target))
          (Text.trimmed target) deployment caller ∧
      (system source target deployment caller =
          filled (sourceName source) (Text.trimmed target) deployment caller ↔
        ¬ targetMark.toList <:+: (sourceName source).toList ∨
          Text.trimmed target = targetMark) := by
  refine ⟨system_eq source target deployment caller, ?_⟩
  rw [system_eq, filled_inj, ← String.toList_inj, Text.replaced, String.toList_ofList,
    Text.replaceAll_eq_self_iff (by decide), String.toList_inj]

/-- A source language called by the mark of the target language comes out as the target language. -/
theorem system_expands_source :
    system (some "\x7btarget_language\x7d") "fr" none none = filled "fr" "fr" none none ∧
      system (some "\x7btarget_language\x7d") "fr" none none ≠
        filled (sourceName (some "\x7btarget_language\x7d")) (Text.trimmed "fr") none none := by
  have hname : sourceName (some "\x7btarget_language\x7d") = "\x7btarget_language\x7d" := by decide
  have htarget : Text.trimmed "fr" = "fr" := by decide
  have hreplaced : Text.replaced "\x7btarget_language\x7d" targetMark "fr" = "fr" := by decide
  rw [system_eq, hname, htarget, hreplaced]
  exact ⟨rfl, fun h => absurd (filled_inj.1 h) (by decide)⟩

end Prompt

end Folio
