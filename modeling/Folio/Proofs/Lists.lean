import Mathlib.Data.List.Forall2

/-!
# Lists

What is taken and dropped from the front of a list with more behind it, and lists that are built
item by item beside another.
-/

set_option autoImplicit false

namespace Folio

section
variable {α : Type} {p : α → Bool} {text behind : List α}

theorem takeWhile_behind (h : ∀ c ∈ behind.head?, p c = false) :
    (text ++ behind).takeWhile p = text.takeWhile p := by
  rw [List.takeWhile_append]
  split
  · rename_i hall
    cases behind with
    | nil => simp [(List.takeWhile_prefix p).eq_of_length hall]
    | cons c cs =>
      rw [List.takeWhile_cons_of_neg (by simp [h c rfl]), List.append_nil,
        (List.takeWhile_prefix p).eq_of_length hall]
  · rfl

theorem dropWhile_behind (h : ∀ c ∈ behind.head?, p c = false) :
    (text ++ behind).dropWhile p = text.dropWhile p ++ behind := by
  rw [List.dropWhile_append]
  split
  · rename_i hnil
    cases behind with
    | nil => simp [List.isEmpty_iff.1 hnil]
    | cons c cs =>
      rw [List.isEmpty_iff.1 hnil, List.dropWhile_cons_of_neg (by simp [h c rfl]), List.nil_append]
  · rfl

theorem dropWhile_of_all (h : ∀ c ∈ text, p c = true) : text.dropWhile p = [] := by
  simpa using @List.dropWhile_append_of_pos _ _ text [] h

theorem dropWhile_of_any (h : text.all p = false) :
    (text ++ behind).dropWhile p = text.dropWhile p ++ behind := by
  rw [List.dropWhile_append, if_neg]
  intro hnil
  have hsplit := List.takeWhile_append_dropWhile (p := p) (l := text)
  rw [List.isEmpty_iff.1 hnil, List.append_nil] at hsplit
  have hall := List.all_takeWhile (p := p) (l := text)
  rw [hsplit, h] at hall
  exact Bool.noConfusion hall

theorem reverse_dropWhile (h : ∀ c ∈ text.getLast?, p c = false) :
    (text.reverse.dropWhile p).reverse = text := by
  rw [← List.head?_reverse] at h
  cases hreverse : text.reverse with
  | nil => exact (List.reverse_eq_nil_iff.1 hreverse).symm
  | cons c cs =>
    rw [hreverse] at h
    rw [List.dropWhile_cons_of_neg (by simp [h c rfl]), ← hreverse, List.reverse_reverse]

end

theorem exists_forall₂ {α β : Type} {R : α → β → Prop} {as : List α} (h : ∀ a ∈ as, ∃ b, R a b) :
    ∃ bs, List.Forall₂ R as bs := by
  induction as with
  | nil => exact ⟨[], .nil⟩
  | cons a as ih =>
    obtain ⟨⟨b, hb⟩, hrest⟩ := List.forall_mem_cons.1 h
    obtain ⟨bs, hbs⟩ := ih hrest
    exact ⟨b :: bs, .cons hb hbs⟩

end Folio
