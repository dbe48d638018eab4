import Folio.Layout.Column
import Folio.Proofs.Splitting
import Mathlib.Data.List.Chain
import Mathlib.Data.List.Infix

/-!
# Words

A text is divided into words by its separators, and words are put together with a space between
them (`joinWords`). Lines of words have single separators between other characters (`Spaced`).
-/

set_option autoImplicit false

namespace Folio.Column

/-- The characters of a text that do not separate words. -/
def letters (text : List Char) : List Char := text.filter fun c => !isSeparator c

@[simp] theorem letters_append (a b : List Char) : letters (a ++ b) = letters a ++ letters b :=
  List.filter_append _ _

/-- A text that is not empty and is all letters. -/
structure IsWord (word : List Char) : Prop where
  ne_nil : word ≠ []
  unseparated : ∀ c ∈ word, isSeparator c = false

theorem letters_of_forall {text : List Char} (h : ∀ c ∈ text, isSeparator c = false) :
    letters text = text :=
  List.filter_eq_self.2 fun c hc => by rw [h c hc]; rfl

theorem isWord_of_mem_words {text word : List Char} (h : word ∈ words text) : IsWord word := by
  obtain ⟨hmem, hne⟩ := List.mem_filter.1 h
  exact ⟨by simpa using hne, fun c hc => Text.not_cut_of_mem_splitWhere hmem hc⟩

theorem flatten_words (text : List Char) : (words text).flatten = letters text := by
  rw [words, letters, ← Text.flatten_splitWhere]
  exact List.flatten_filter_not_isEmpty

/-- Words with a space between them. -/
def joinWords (words : List (List Char)) : Line := Text.joinWith [' '] words

@[simp] theorem joinWords_nil : joinWords [] = [] := rfl

@[simp] theorem joinWords_singleton (word : List Char) : joinWords [word] = word := rfl

theorem joinWords_cons (word : List Char) {words : List (List Char)} (h : words ≠ []) :
    joinWords (word :: words) = word ++ ' ' :: joinWords words := by
  obtain ⟨next, words, rfl⟩ := List.exists_cons_of_ne_nil h
  simp [joinWords, Text.joinWith]

theorem joinWords_append {a b : List (List Char)} (ha : a ≠ []) (hb : b ≠ []) :
    joinWords (a ++ b) = joinWords a ++ ' ' :: joinWords b := by
  induction a with
  | nil => exact absurd rfl ha
  | cons word a ih =>
    by_cases h : a = []
    · subst h
      exact joinWords_cons word hb
    · rw [List.cons_append, joinWords_cons word (List.append_ne_nil_of_left_ne_nil h b), ih h,
        joinWords_cons word h, List.append_assoc, List.cons_append]

theorem letters_joinWords {words : List (List Char)} (h : ∀ word ∈ words, IsWord word) :
    letters (joinWords words) = words.flatten := by
  induction words with
  | nil => rfl
  | cons word words ih =>
    have hword := letters_of_forall (h word List.mem_cons_self).unseparated
    by_cases hnil : words = []
    · subst hnil
      simpa using hword
    · have hspace : letters (' ' :: joinWords words) = letters (joinWords words) :=
        List.filter_cons_of_neg (by decide)
      rw [joinWords_cons word hnil, letters_append, hword, hspace,
        ih fun w hw => h w (List.mem_cons_of_mem word hw), List.flatten_cons]

theorem joinWords_ne_nil {words : List (List Char)} (h : ∀ word ∈ words, IsWord word)
    (hne : words ≠ []) : joinWords words ≠ [] := by
  obtain ⟨word, words, rfl⟩ := List.exists_cons_of_ne_nil hne
  by_cases hnil : words = []
  · subst hnil
    exact (h word List.mem_cons_self).ne_nil
  · rw [joinWords_cons word hnil]
    simp

theorem isEmpty_joinWords {words : List (List Char)} (h : ∀ word ∈ words, IsWord word) :
    (joinWords words).isEmpty = words.isEmpty := by
  by_cases hnil : words = []
  · subst hnil
    rfl
  · rw [Bool.eq_iff_iff, List.isEmpty_iff, List.isEmpty_iff]
    simp [hnil, joinWords_ne_nil h hnil]

/-- A line takes a word behind a space. -/
theorem append_joinWords {words : List (List Char)} (h : ∀ word ∈ words, IsWord word)
    (word : List Char) : append (joinWords words) word = joinWords (words ++ [word]) := by
  rw [append, isEmpty_joinWords h]
  by_cases hnil : words = []
  · subst hnil
    rfl
  · rw [if_neg (by simpa using hnil), joinWords_append hnil (List.cons_ne_nil word []),
      joinWords_singleton]

/-! ## Parts of lines -/

theorem infix_joinWords {part whole : List (List Char)} (hne : part ≠ []) (h : part <:+: whole) :
    joinWords part <:+: joinWords whole := by
  obtain ⟨before, after, rfl⟩ := h
  have hleft : joinWords part <:+: joinWords (before ++ part) := by
    by_cases hb : before = []
    · subst hb
      exact List.infix_rfl
    · rw [joinWords_append hb hne]
      exact ⟨joinWords before ++ [' '], [], by simp⟩
  refine hleft.trans ?_
  by_cases ha : after = []
  · subst ha
    rw [List.append_nil]
  · rw [joinWords_append (List.append_ne_nil_of_right_ne_nil before hne) ha]
    exact List.infix_append_left

theorem joinWords_part {part whole : List (List Char)} (h : part <:+: whole) :
    joinWords part <:+: joinWords whole := by
  by_cases hnil : part = []
  · subst hnil
    exact List.nil_infix
  · exact infix_joinWords hnil h

/-! ## Separators in lines -/

/-- Separators stand one by one, between other characters. -/
structure Spaced (line : Line) : Prop where
  head : ∀ c ∈ line.head?, isSeparator c = false
  last : ∀ c ∈ line.getLast?, isSeparator c = false
  single : line.IsChain fun a b => isSeparator a = false ∨ isSeparator b = false

theorem spaced_of_forall {line : Line} (h : ∀ c ∈ line, isSeparator c = false) : Spaced line where
  head c hc := h c (List.mem_of_mem_head? hc)
  last c hc := h c (List.mem_of_mem_getLast? hc)
  single := (List.pairwise_of_forall_mem_list fun a ha _ _ => .inl (h a ha)).isChain

/-- A space may stand between two texts. -/
theorem Spaced.join {a b : Line} (ha : Spaced a) (hb : Spaced b) (hane : a ≠ []) (hbne : b ≠ []) :
    Spaced (a ++ ' ' :: b) where
  head c hc := ha.head c (by rwa [List.head?_append_of_ne_nil a hane] at hc)
  last c hc := hb.last c (by
    rwa [List.getLast?_append_of_ne_nil a (List.cons_ne_nil _ _),
      List.getLast?_cons_of_ne_nil hbne] at hc)
  single := by
    refine List.isChain_append.2 ⟨ha.single, ?_, fun x hx _ _ => .inl (ha.last x hx)⟩
    exact List.isChain_cons.2 ⟨fun y hy => .inr (hb.head y hy), hb.single⟩

theorem spaced_joinWords {words : List (List Char)} (h : ∀ word ∈ words, IsWord word) :
    Spaced (joinWords words) := by
  induction words with
  | nil => exact spaced_of_forall (by simp)
  | cons word words ih =>
    have hword := h word List.mem_cons_self
    have hrest : ∀ w ∈ words, IsWord w := fun w hw => h w (List.mem_cons_of_mem word hw)
    by_cases hnil : words = []
    · subst hnil
      exact spaced_of_forall hword.unseparated
    · rw [joinWords_cons word hnil]
      exact (spaced_of_forall hword.unseparated).join (ih hrest) hword.ne_nil
        (joinWords_ne_nil hrest hnil)

theorem words_of_isWord {word : List Char} (h : IsWord word) : words word = [word] := by
  have hempty : word.isEmpty = false := List.isEmpty_eq_false_iff.2 h.ne_nil
  rw [words, Text.splitWhere_uncut h.unseparated, List.filter_cons_of_pos (by simp [hempty])]
  rfl

theorem isWord_replicate {c : Char} (hc : isSeparator c = false) (n : ℕ) :
    IsWord (List.replicate (n + 1) c) where
  ne_nil := List.cons_ne_nil c _
  unseparated d hd := by rwa [List.eq_of_mem_replicate hd]

end Folio.Column
