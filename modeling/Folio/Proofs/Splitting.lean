import Folio.Text.Blank
import Folio.Text.Split
import Mathlib.Data.List.TakeWhile

/-!
# Splitting and trimming

The pieces of a text hold all of it but the cuts (`flatten_splitWhere`), and a cut may be anywhere
in it (`splitWhere_append_cut`). Trimming takes off the blanks around a text and nothing else
(`trim_blanks`), so that blanks put around a text do not show (`trim_padded`).
-/

set_option autoImplicit false

namespace Folio.Text

/-! ## Splitting -/

theorem splitWhere_append_cut {cut : Char → Bool} {c : Char} (hc : cut c = true)
    (a b : List Char) : splitWhere cut (a ++ c :: b) = splitWhere cut a ++ splitWhere cut b := by
  induction a with
  | nil => simp [splitWhere, hc]
  | cons x a ih =>
    rw [List.cons_append, splitWhere, splitWhere, ih]
    by_cases hx : cut x = true
    · simp [hx]
    · obtain ⟨piece, pieces, hp⟩ := List.exists_cons_of_ne_nil (splitWhere_ne_nil cut a)
      simp [hx, hp]

theorem splitWhere_uncut {cut : Char → Bool} {text : List Char}
    (h : ∀ c ∈ text, cut c = false) : splitWhere cut text = [text] := by
  induction text with
  | nil => rfl
  | cons c cs ih =>
    rw [List.forall_mem_cons] at h
    simp [splitWhere, h.1, ih h.2]

theorem flatten_splitWhere (cut : Char → Bool) (text : List Char) :
    (splitWhere cut text).flatten = text.filter fun c => !cut c := by
  induction text with
  | nil => rfl
  | cons c cs ih =>
    unfold splitWhere
    by_cases hc : cut c
    · simpa [hc] using ih
    · cases hs : splitWhere cut cs with
      | nil => exact absurd hs (splitWhere_ne_nil cut cs)
      | cons piece pieces =>
        rw [hs, List.flatten_cons] at ih
        simp [hc, ih]

theorem not_cut_of_mem_splitWhere {cut : Char → Bool} {text piece : List Char}
    (h : piece ∈ splitWhere cut text) {c : Char} (hc : c ∈ piece) : cut c = false := by
  have hmem : c ∈ (splitWhere cut text).flatten := List.mem_flatten.2 ⟨piece, h, hc⟩
  rw [flatten_splitWhere, List.mem_filter] at hmem
  simpa using hmem.2

/-! ## Trimming -/

/-- Blanks in any number. -/
def Blanks (ws : List Char) : Prop := ∀ c ∈ ws, isBlank c = true

instance (ws : List Char) : Decidable (Blanks ws) :=
  decidable_of_iff (ws.all isBlank = true) List.all_eq_true

/-- A text that neither starts nor ends with a blank. -/
structure Tight (text : List Char) : Prop where
  head : ∃ c rest, text = c :: rest ∧ isBlank c = false
  last : ∃ rest c, text = rest ++ [c] ∧ isBlank c = false

theorem dropWhile_blanks {ws : List Char} (hw : Blanks ws) {c : Char} (hc : isBlank c = false)
    (text : List Char) : (ws ++ c :: text).dropWhile isBlank = c :: text := by
  rw [List.dropWhile_append_of_pos hw, List.dropWhile_cons_of_neg (by simp [hc])]

theorem Blanks.reverse {ws : List Char} (h : Blanks ws) : Blanks ws.reverse := fun c hc =>
  h c (List.mem_reverse.1 hc)

/-- Trimming takes off the blanks around a tight text and nothing else. -/
theorem trim_blanks {ws text ws' : List Char} (hw : Blanks ws) (hw' : Blanks ws')
    (ht : Tight text) : trim (ws ++ text ++ ws') = text := by
  have hstart : trimStart (ws ++ text ++ ws') = text ++ ws' := by
    obtain ⟨c, rest, rfl, hc⟩ := ht.head
    rw [trimStart, List.append_assoc, List.cons_append, dropWhile_blanks hw hc]
  have hend : trimEnd (text ++ ws') = text := by
    obtain ⟨rest, c, rfl, hc⟩ := ht.last
    rw [trimEnd, List.reverse_append, List.reverse_append, List.reverse_singleton,
      List.singleton_append, dropWhile_blanks hw'.reverse hc, List.reverse_cons,
      List.reverse_reverse]
  rw [trim, hstart, hend]

theorem trim_tight {text : List Char} (h : Tight text) : trim text = text := by
  have hblanks : Blanks [] := by decide
  simpa using trim_blanks hblanks hblanks h

theorem dropWhile_eq_cons {p : Char → Bool} {text : List Char} (h : ∃ c ∈ text, p c = false) :
    ∃ c rest, text.dropWhile p = c :: rest ∧ p c = false := by
  induction text with
  | nil =>
    obtain ⟨c, hc, -⟩ := h
    cases hc
  | cons x xs ih =>
    cases hx : p x with
    | false => exact ⟨x, xs, List.dropWhile_cons_of_neg (by simp [hx]), hx⟩
    | true =>
      obtain ⟨c, hc, hcp⟩ := h
      have hmem : c ∈ xs := by
        rcases List.mem_cons.1 hc with rfl | hc
        · rw [hx] at hcp
          cases hcp
        · exact hc
      rw [List.dropWhile_cons_of_pos hx]
      exact ih ⟨c, hmem, hcp⟩

/-- Trimming at the end stops at a character that is no blank. -/
theorem trimEnd_append {c : Char} (hc : isBlank c = false) (before text : List Char) :
    trimEnd (before ++ c :: text) = before ++ c :: trimEnd text := by
  have hlast : (text.reverse ++ c :: before.reverse).dropWhile isBlank =
      text.reverse.dropWhile isBlank ++ c :: before.reverse := by
    rw [List.dropWhile_append]
    split
    · rename_i hnil
      rw [List.isEmpty_iff.1 hnil, List.nil_append, List.dropWhile_cons_of_neg (by simp [hc])]
    · rfl
  have hrev : (before ++ c :: text).reverse = text.reverse ++ c :: before.reverse := by simp
  rw [trimEnd, hrev, hlast]
  simp [trimEnd]

theorem trimEnd_cons {c : Char} (hc : isBlank c = false) (text : List Char) :
    trimEnd (c :: text) = c :: trimEnd text :=
  trimEnd_append hc [] text

theorem mem_of_mem_trimEnd {c : Char} {text : List Char} (h : c ∈ trimEnd text) : c ∈ text := by
  rw [trimEnd, List.mem_reverse] at h
  exact List.mem_reverse.1 ((List.dropWhile_sublist isBlank).subset h)

/-- What trimming leaves of a text with something in it is tight. -/
theorem tight_trim {text : List Char} (h : ∃ c ∈ text, isBlank c = false) : Tight (trim text) := by
  obtain ⟨first, rest, hstart, hfirst⟩ := dropWhile_eq_cons h
  have hsome : ∃ c ∈ (first :: rest).reverse, isBlank c = false := ⟨first, by simp, hfirst⟩
  obtain ⟨last, before, hend, hlast⟩ := dropWhile_eq_cons hsome
  have htrim : trim text = trimEnd (first :: rest) := congrArg trimEnd hstart
  constructor
  · exact ⟨first, trimEnd rest, htrim.trans (trimEnd_cons hfirst rest), hfirst⟩
  · exact ⟨before.reverse, last, by rw [htrim, trimEnd, hend, List.reverse_cons], hlast⟩

theorem trim_eq_nil_iff {text : List Char} : trim text = [] ↔ Blanks text := by
  constructor
  · intro h
    by_contra hblank
    have hsome : ∃ c ∈ text, isBlank c = false := by
      simpa [Blanks] using hblank
    obtain ⟨c, rest, hhead, -⟩ := (tight_trim hsome).head
    rw [h] at hhead
    cases hhead
  · intro h
    have hstart : trimStart text = [] := List.dropWhile_eq_nil_iff.2 h
    rw [trim, hstart]
    rfl

/-- Blanks around a text do not show when it is trimmed. -/
theorem trim_padded {before after : List Char} (hb : Blanks before) (ha : Blanks after)
    (text : List Char) : trim (before ++ text ++ after) = trim text := by
  have hend (text : List Char) : trimEnd (text ++ after) = trimEnd text := by
    rw [trimEnd, List.reverse_append, List.dropWhile_append_of_pos ha.reverse, ← trimEnd]
  have hstart : trimStart (before ++ text ++ after) = trimStart (text ++ after) := by
    rw [trimStart, List.append_assoc, List.dropWhile_append_of_pos hb, ← trimStart]
  rw [trim, hstart, trimStart, List.dropWhile_append]
  split
  · rename_i hnil
    have hafter : after.dropWhile isBlank = [] := List.dropWhile_eq_nil_iff.2 ha
    rw [trim, trimStart, List.isEmpty_iff.1 hnil, hafter]
  · rw [hend]
    rfl

/-! ## Strings -/

theorem trimmed_trimmed (text : String) : trimmed (trimmed text) = trimmed text := by
  by_cases h : Blanks text.toList
  · rw [trimmed, trimmed, trim_eq_nil_iff.2 h]
    rfl
  · have hsome : ∃ c ∈ text.toList, isBlank c = false := by simpa [Blanks] using h
    rw [trimmed, trimmed, String.toList_ofList, trim_tight (tight_trim hsome)]

theorem hasContent_iff {text : String} : hasContent text = true ↔ trimmed text ≠ "" := by
  have hblanks : trimmed text = "" ↔ Blanks text.toList := by
    rw [← trim_eq_nil_iff, trimmed, String.ofList_eq_empty_iff]
  rw [ne_eq, hblanks, hasContent, List.any_eq_true]
  simp [Blanks]

/-- A text counts as none if trimming leaves nothing of it. -/
theorem nonBlank?_eq (text : String) :
    nonBlank? text = if trimmed text = "" then none else some (trimmed text) := by
  by_cases h : trimmed text = ""
  · rw [nonBlank?, if_pos h, if_neg (by simpa [hasContent_iff] using h)]
  · rw [nonBlank?, if_neg h, if_pos (hasContent_iff.2 h)]

end Folio.Text
