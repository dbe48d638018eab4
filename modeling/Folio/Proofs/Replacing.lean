import Folio.Text.Split
import Mathlib.Data.List.Induction
import Mathlib.Data.List.Infix

/-!
# Replacing

A pattern is replaced from the left, at occurrences that do not overlap (`Replaces`). A character
that the pattern does not hold keeps what stands before it from what stands behind it
(`replaceAll_append_cons`), and a text stays as it is only where there is nothing to replace, or
where the pattern is replaced by itself (`replaceAll_eq_self_iff`).
-/

set_option autoImplicit false

namespace Folio.Text

/-- A text and the text in which a pattern is replaced. -/
inductive Replaces (pattern replacement : List Char) : List Char → List Char → Prop
  | nil : Replaces pattern replacement [] []
  | copied {text result : List Char} {c : Char} (other : ¬ pattern <+: c :: text)
      (rest : Replaces pattern replacement text result) :
      Replaces pattern replacement (c :: text) (c :: result)
  | replaced {text result : List Char} (rest : Replaces pattern replacement text result) :
      Replaces pattern replacement (pattern ++ text) (replacement ++ result)

section
variable {pattern replacement : List Char} (hne : pattern ≠ [])

/-- A pattern at the start of a text ends before a character that it does not hold. -/
theorem prefix_before {c : Char} (hc : c ∉ pattern) {front text : List Char}
    (h : pattern <+: front ++ c :: text) : pattern <+: front := by
  have hconcat : front ++ [c] <+: front ++ c :: text := ⟨text, by simp⟩
  rcases List.prefix_or_prefix_of_prefix h hconcat with hpattern | hfront
  · rcases List.prefix_concat_iff.1 hpattern with rfl | hpattern
    · simp at hc
    · exact hpattern
  · exact absurd (hfront.subset (by simp)) hc

@[simp] theorem replaceAll_nil (pattern replacement : List Char) :
    replaceAll pattern replacement [] = [] := rfl

theorem replaceFrom_drop (pattern replacement : List Char) (skip : ℕ) (text : List Char) :
    replaceFrom pattern replacement skip text =
      replaceAll pattern replacement (text.drop skip) := by
  induction text generalizing skip with
  | nil => rw [List.drop_nil, replaceAll, replaceFrom, replaceFrom]
  | cons c cs ih =>
    cases skip with
    | zero => rfl
    | succ skip => exact ih skip

include hne in
theorem replaces_replaceAll (text : List Char) :
    Replaces pattern replacement text (replaceAll pattern replacement text) := by
  induction hlength : text.length using Nat.strongRecOn generalizing text with
  | ind length ih =>
    cases text with
    | nil => exact .nil
    | cons c cs =>
      rw [replaceAll, replaceFrom]
      split
      · rename_i hprefix
        obtain ⟨rest, hrest⟩ := List.isPrefixOf_iff_prefix.1 hprefix
        have hpos : 0 < pattern.length := List.length_pos_iff.2 hne
        have hdrop : cs.drop (pattern.length - 1) = rest := by
          have hcons : (c :: cs).drop pattern.length = rest := by rw [← hrest, List.drop_left]
          rwa [← Nat.sub_add_cancel hpos, List.drop_succ_cons] at hcons
        rw [replaceFrom_drop, hdrop, ← hrest]
        refine .replaced (ih rest.length ?_ rest rfl)
        have hsum := congrArg List.length hrest
        rw [List.length_append] at hsum
        omega
      · rename_i hprefix
        refine .copied (fun h => hprefix (List.isPrefixOf_iff_prefix.2 h)) (ih cs.length ?_ cs rfl)
        rw [← hlength]
        exact Nat.lt_succ_self _

namespace Replaces

variable {text result : List Char} (h : Replaces pattern replacement text result)

include h

include hne in
/-- There is one result for a text. -/
theorem eq_replaceAll : replaceAll pattern replacement text = result := by
  induction h with
  | nil => rfl
  | @copied text result c other rest ih =>
    have hprefix : ¬ pattern.isPrefixOf (c :: text) = true := fun hprefix =>
      other (List.isPrefixOf_iff_prefix.1 hprefix)
    rw [replaceAll, replaceFrom, if_neg hprefix, ← replaceAll, ih]
  | @replaced text result rest ih =>
    cases pattern with
    | nil => exact absurd rfl hne
    | cons c cs =>
      have hprefix : (c :: cs).isPrefixOf (c :: (cs ++ text)) = true :=
        List.isPrefixOf_iff_prefix.2 (List.prefix_append (c :: cs) text)
      rw [List.cons_append, replaceAll, replaceFrom, if_pos hprefix, replaceFrom_drop,
        List.length_cons, Nat.add_sub_cancel, List.drop_left, ih]

include hne in
/-- No occurrence goes on over a character that is not in the pattern. -/
theorem append_cons {c : Char} (hc : c ∉ pattern) {more moreResult : List Char}
    (hmore : Replaces pattern replacement more moreResult) :
    Replaces pattern replacement (text ++ c :: more) (result ++ c :: moreResult) := by
  induction h with
  | nil => exact .copied (fun hprefix => hne (List.prefix_nil.1 (prefix_before hc hprefix))) hmore
  | copied other rest ih => exact .copied (fun hprefix => other (prefix_before hc hprefix)) ih
  | replaced rest ih =>
    rw [List.append_assoc, List.append_assoc]
    exact .replaced ih

/-- Lengths change with every replacement in the same direction. -/
theorem length_le : (replacement.length ≤ pattern.length → result.length ≤ text.length) ∧
    (pattern.length ≤ replacement.length → text.length ≤ result.length) := by
  induction h with
  | nil => exact ⟨fun _ => le_rfl, fun _ => le_rfl⟩
  | copied other rest ih =>
    simp only [List.length_cons]
    omega
  | replaced rest ih =>
    simp only [List.length_append]
    omega

include hne in
/-- What comes out is the text itself only if there is nothing to replace in it, or the pattern is
replaced by itself. -/
theorem not_infix_or_eq (heq : result = text) : ¬ pattern <:+: text ∨ replacement = pattern := by
  induction h with
  | nil => exact .inl fun hinfix => hne (List.infix_nil.1 hinfix)
  | copied other rest ih =>
    rw [List.infix_cons_iff, not_or]
    exact (ih (List.cons.inj heq).2).imp_left fun hrest => ⟨other, hrest⟩
  | @replaced text result rest ih =>
    obtain ⟨hshorter, hlonger⟩ := rest.length_le
    have hsum : replacement.length + result.length = pattern.length + text.length := by
      simpa using congrArg List.length heq
    exact .inr (List.append_inj heq (by omega)).1

end Replaces

theorem Replaces.eq_self {text result : List Char} (h : Replaces pattern pattern text result) :
    result = text := by
  induction h with
  | nil => rfl
  | copied other rest ih => rw [ih]
  | replaced rest ih => rw [ih]

include hne

theorem replaceAll_append_cons {c : Char} (hc : c ∉ pattern) (text more : List Char) :
    replaceAll pattern replacement (text ++ c :: more) =
      replaceAll pattern replacement text ++ c :: replaceAll pattern replacement more :=
  ((replaces_replaceAll hne text).append_cons hne hc (replaces_replaceAll hne more)).eq_replaceAll
    hne

theorem replaceAll_append_of_last {front : List Char} (h : ∀ c ∈ front.getLast?, c ∉ pattern)
    (text : List Char) : replaceAll pattern replacement (front ++ text) =
      replaceAll pattern replacement front ++ replaceAll pattern replacement text := by
  induction front using List.reverseRecOn with
  | nil => simp
  | append_singleton front c =>
    have hc : c ∉ pattern := h c List.getLast?_concat
    simp [replaceAll_append_cons hne hc]

theorem replaceAll_append_of_head {back : List Char} (h : ∀ c ∈ back.head?, c ∉ pattern)
    (text : List Char) : replaceAll pattern replacement (text ++ back) =
      replaceAll pattern replacement text ++ replaceAll pattern replacement back := by
  cases back with
  | nil => simp
  | cons c back =>
    have hc : c ∉ pattern := h c rfl
    have hback : replaceAll pattern replacement (c :: back) =
        c :: replaceAll pattern replacement back := replaceAll_append_cons hne hc [] back
    rw [replaceAll_append_cons hne hc, hback]

/-- What stands between two texts is replaced on its own, if these begin and end outside the
pattern. -/
theorem replaceAll_between {front back : List Char} (hfront : ∀ c ∈ front.getLast?, c ∉ pattern)
    (hback : ∀ c ∈ back.head?, c ∉ pattern) (text : List Char) :
    replaceAll pattern replacement (front ++ (text ++ back)) =
      replaceAll pattern replacement front ++
        (replaceAll pattern replacement text ++ replaceAll pattern replacement back) := by
  rw [replaceAll_append_of_last hne hfront, replaceAll_append_of_head hne hback]

theorem replaceAll_pattern : replaceAll pattern replacement pattern = replacement := by
  have h : Replaces pattern replacement (pattern ++ []) (replacement ++ []) := .replaced .nil
  simpa using h.eq_replaceAll hne

theorem replaceAll_of_not_infix {text : List Char} (h : ¬ pattern <:+: text) :
    replaceAll pattern replacement text = text := by
  have hreplaces : Replaces pattern replacement text text := by
    induction text with
    | nil => exact .nil
    | cons c cs ih =>
      rw [List.infix_cons_iff, not_or] at h
      exact .copied h.1 (ih h.2)
  exact hreplaces.eq_replaceAll hne

theorem replaceAll_of_not_mem {c : Char} (hc : c ∈ pattern) {text : List Char} (h : c ∉ text) :
    replaceAll pattern replacement text = text :=
  replaceAll_of_not_infix hne fun hpart => h (hpart.subset hc)

/-- A text stays as it is exactly if the pattern does not occur in it or is replaced by itself. -/
theorem replaceAll_eq_self_iff {text : List Char} :
    replaceAll pattern replacement text = text ↔ ¬ pattern <:+: text ∨ replacement = pattern := by
  constructor
  · exact (replaces_replaceAll hne text).not_infix_or_eq hne
  · rintro (hnot | rfl)
    · exact replaceAll_of_not_infix hne hnot
    · exact (replaces_replaceAll hne text).eq_self

end

end Folio.Text
