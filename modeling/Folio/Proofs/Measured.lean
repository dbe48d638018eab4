import Folio.Proofs.Breaking
import Folio.Proofs.TextWidth
import Folio.Proofs.Words
import Mathlib.Control.Monad.Writer

/-!
# Measured lines

A recording walk breaks text by the true widths of lines and keeps the lines that it measures. The
program breaks the text in the same way as long as these can be counted, and panics if and only if
one of them can not (`wrapParagraph_eq`). Only parts of the text are measured, so that there is no
panic where the text itself can be counted (`wrapChars_returns`, `wrapWords_returns`).
-/

set_option autoImplicit false

namespace Folio

/-! ## Recording walks -/

/-- A walk that records the lines it measures. -/
abbrev Measuring := Writer (List Line)

namespace Measuring

variable {α β : Type}

/-- What the walk gives. -/
def value (walk : Measuring α) : α := walk.run.1

/-- The lines that are measured on the walk. -/
def lines (walk : Measuring α) : List Line := walk.run.2

@[simp] theorem lines_pure (a : α) : (pure a : Measuring α).lines = [] := rfl

@[simp] theorem lines_bind (walk : Measuring α) (next : α → Measuring β) :
    (walk >>= next).lines = walk.lines ++ (next walk.value).lines := rfl

/-- The walk, if all that it measures can be counted; otherwise the program panics. -/
def checked (column : Column) (walk : Measuring α) : Checked α :=
  if ∀ line ∈ walk.lines, column.Counts line then .ok walk.value else .error .overflow

theorem checked_bind (column : Column) (walk : Measuring α) (next : α → Measuring β) :
    (walk >>= next).checked column = walk.checked column >>= fun a => (next a).checked column := by
  unfold checked
  rw [lines_bind]
  by_cases hwalk : ∀ line ∈ walk.lines, column.Counts line
  · have hboth : (∀ line ∈ walk.lines ++ (next walk.value).lines, column.Counts line) ↔
        ∀ line ∈ (next walk.value).lines, column.Counts line :=
      List.forall_mem_append.trans (and_iff_right hwalk)
    rw [if_pos hwalk, if_congr hboth rfl rfl]
    rfl
  · rw [if_neg hwalk, if_neg fun h => hwalk (List.forall_mem_append.1 h).1]
    rfl

end Measuring

namespace Column

variable (column : Column)

/-- Tells by its true width whether the column holds a line, which is measured for that. -/
def measure (line : Line) : Measuring Bool := do
  tell [line]
  return column.holds line

@[simp] theorem lines_measure (line : Line) : (column.measure line).lines = [line] := rfl

theorem value_measure (line : Line) : (column.measure line).value = column.holds line := rfl

theorem checked_measure (line : Line) :
    (column.measure line).checked column = column.fits line := by
  rw [fits_eq, Measuring.checked, lines_measure]
  simp only [List.mem_singleton, forall_eq]
  rfl

/-- Walks whose lines can be counted. -/
def counting : Relating Measuring Checked where
  rel walk computation := walk.checked column = computation
  pure _ := rfl
  bind {_ _ x _ f _} hx hf := by
    rw [Measuring.checked_bind, hx]
    exact congrArg _ (funext hf)

/-- The lines that are measured while a text is broken at characters. -/
def measuredChars (line : Line) (cs : List Char) : List Line :=
  (breakCharsFrom column.measure line cs).lines

/-- The lines that are measured while words are set. -/
def measuredWords (line : Line) (words : List (List Char)) : List Line :=
  (breakWordsFrom column.measure line words).lines

/-- The lines that are measured while a paragraph is broken. -/
def measured (paragraph : List Char) : List Line :=
  (breakParagraph column.measure paragraph).lines

/-- What recording walks come to. -/
def valued : Relating Measuring Id where
  rel walk value := walk.value = value
  pure _ := rfl
  bind {_ _ _ _ f _} hx hf := (congrArg (fun a => (f a).value) hx).trans (hf _)

theorem value_breakParagraph (paragraph : List Char) :
    (breakParagraph column.measure paragraph).value = paragraphLines column.holds paragraph :=
  valued.breakParagraph (fun _ => rfl) paragraph

/-- A paragraph is broken by the true widths of lines, or not at all. -/
theorem wrapParagraph_eq (paragraph : List Char) :
    column.wrapParagraph paragraph =
      if ∀ line ∈ column.measured paragraph, column.Counts line then
        .ok (paragraphLines column.holds paragraph)
      else .error .overflow := by
  rw [← value_breakParagraph]
  exact (column.counting.breakParagraph column.checked_measure paragraph).symm

/-! ## What is measured -/

@[simp] theorem measuredChars_nil (line : Line) : column.measuredChars line [] = [] := rfl

theorem measuredChars_cons (line : Line) (c : Char) (cs : List Char) :
    column.measuredChars line (c :: cs) = (line ++ [c]) ::
      if column.holds (line ++ [c]) then column.measuredChars (line ++ [c]) cs
      else column.measuredChars [c] cs := by
  have hstep : column.measuredChars line (c :: cs) = (line ++ [c]) :: Measuring.lines
      (if column.holds (line ++ [c]) then breakCharsFrom column.measure (line ++ [c]) cs
      else if line.isEmpty then breakCharsFrom column.measure [c] cs
      else do return line :: (← breakCharsFrom column.measure [c] cs)) := rfl
  rw [hstep]
  split
  · rfl
  · split
    · rfl
    · rw [Measuring.lines_bind, Measuring.lines_pure, List.append_nil]
      rfl

@[simp] theorem measuredWords_nil (line : Line) : column.measuredWords line [] = [] := rfl

theorem measuredWords_cons (line : Line) (word : List Char) (words : List (List Char)) :
    column.measuredWords line (word :: words) = append line word ::
      if column.holds (append line word) then column.measuredWords (append line word) words
      else word ::
        if column.holds word then column.measuredWords word words
        else column.measuredChars [] word ++ column.measuredWords [] words := by
  have hstep : column.measuredWords line (word :: words) = append line word :: Measuring.lines
      (if column.holds (append line word) then
        breakWordsFrom column.measure (append line word) words
      else do
        let before := if line.isEmpty then [] else [line]
        if ← column.measure word then
          return before ++ (← breakWordsFrom column.measure word words)
        else return before ++ (← breakChars column.measure word) ++
          (← breakWordsFrom column.measure [] words)) := rfl
  rw [hstep]
  split
  · rfl
  · rw [Measuring.lines_bind, lines_measure, value_measure, List.singleton_append]
    split
    · rw [Measuring.lines_bind, Measuring.lines_pure, List.append_nil]
      rfl
    · rw [Measuring.lines_bind, Measuring.lines_bind, Measuring.lines_pure, List.append_nil]
      rfl

section
variable {column} {line : Line}

theorem measured_chars_cons {c : Char} {cs : List Char} {text : Line}
    (h : text ∈ column.measuredChars line (c :: cs)) :
    text = line ++ [c] ∨
      (column.holds (line ++ [c]) ∧ text ∈ column.measuredChars (line ++ [c]) cs) ∨
      text ∈ column.measuredChars [c] cs := by
  rw [measuredChars_cons, List.mem_cons] at h
  refine h.imp_right fun h => ?_
  split at h
  · rename_i hfits
    exact .inl ⟨hfits, h⟩
  · exact .inr h

theorem measured_words_cons {word : List Char} {words : List (List Char)} {text : Line}
    (h : text ∈ column.measuredWords line (word :: words)) :
    text = append line word ∨
      (column.holds (append line word) ∧
        text ∈ column.measuredWords (append line word) words) ∨
      text = word ∨
      (column.holds word ∧ text ∈ column.measuredWords word words) ∨
      text ∈ column.measuredChars [] word ∨
      text ∈ column.measuredWords [] words := by
  rw [measuredWords_cons, List.mem_cons] at h
  refine h.imp_right fun h => ?_
  split at h
  · rename_i hfits
    exact .inl ⟨hfits, h⟩
  · rw [List.mem_cons] at h
    refine .inr (h.imp_right fun h => ?_)
    split at h
    · rename_i hfits
      exact .inl ⟨hfits, h⟩
    · exact .inr (List.mem_append.1 h)

/-- Breaking at characters measures parts of the text. -/
theorem infix_of_measured_chars {cs text : List Char}
    (h : text ∈ column.measuredChars line cs) : text <:+: line ++ cs := by
  induction cs generalizing line with
  | nil => simp at h
  | cons c cs ih =>
    rcases measured_chars_cons h with rfl | ⟨-, hlonger⟩ | hnext
    · exact (List.prefix_append (line ++ [c]) cs).isInfix.trans (by simp)
    · simpa using ih hlonger
    · exact (ih hnext).trans (List.suffix_append line (c :: cs)).isInfix

/-- Breaking between words measures parts of the words with spaces between them. -/
theorem infix_of_measured_words {current words : List (List Char)} {text : Line}
    (hwords : ∀ word ∈ current ++ words, IsWord word)
    (h : text ∈ column.measuredWords (joinWords current) words) :
    text <:+: joinWords (current ++ words) := by
  induction words generalizing current with
  | nil => simp at h
  | cons word words ih =>
    have happend := append_joinWords (fun w hw => hwords w (List.mem_append_left _ hw)) word
    have htaken : current ++ word :: words = current ++ [word] ++ words := by simp
    have hlater : ∀ w ∈ word :: words, IsWord w := fun w hw =>
      hwords w (List.mem_append_right current hw)
    have hbehind : joinWords (word :: words) <:+: joinWords (current ++ word :: words) :=
      joinWords_part (List.suffix_append current _).isInfix
    have hword : word <:+: joinWords (word :: words) :=
      joinWords_part (List.prefix_append [word] words).isInfix
    rcases measured_words_cons h with rfl | ⟨-, hjoined⟩ | rfl | ⟨-, hnext⟩ | hbroken | hnext
    · rw [happend, htaken]
      exact joinWords_part (List.prefix_append _ words).isInfix
    · rw [happend] at hjoined
      rw [htaken] at hwords ⊢
      exact ih hwords hjoined
    · exact hword.trans hbehind
    · have hset : ∀ w ∈ [word] ++ words, IsWord w := hlater
      exact (ih hset hnext).trans hbehind
    · exact ((infix_of_measured_chars hbroken).trans hword).trans hbehind
    · have hset : ∀ w ∈ [] ++ words, IsWord w := (List.forall_mem_cons.1 hlater).2
      have hrest := ih hset hnext
      exact (hrest.trans (joinWords_part (List.suffix_cons word words).isInfix)).trans hbehind

end

/-- The text that the lines of a paragraph are taken from. -/
def joined (paragraph : List Char) : List Char :=
  if isUnspaced paragraph then paragraph else joinWords (words paragraph)

theorem measured_eq (column : Column) (paragraph : List Char) :
    column.measured paragraph = if isUnspaced paragraph then column.measuredChars [] paragraph
      else column.measuredWords [] (words paragraph) := by
  unfold measured breakParagraph
  split <;> rfl

section
variable {column : Column}

theorem infix_of_measured {paragraph : List Char} {text : Line}
    (h : text ∈ column.measured paragraph) : text <:+: joined paragraph := by
  rw [measured_eq] at h
  split at h
  · rename_i hunspaced
    rw [joined, if_pos hunspaced]
    exact infix_of_measured_chars h
  · rename_i hspaced
    rw [joined, if_neg hspaced]
    have hwords : ∀ word ∈ [] ++ words paragraph, IsWord word := fun _ => isWord_of_mem_words
    exact infix_of_measured_words hwords h

/-! ## Texts that can be counted -/

theorem Counts.of_part {part text : Line} (h : column.Counts text) (hpart : part <:+: text) :
    column.Counts part :=
  (thousandths_le_of_part _ hpart).trans_lt h

theorem wrapChars_returns {text : List Char} (h : column.Counts text) :
    ∃ lines, column.wrapChars text = .ok lines := by
  have hwalk := column.counting.breakCharsFrom column.checked_measure [] text
  refine ⟨_, hwalk.symm.trans (if_pos fun line hline => ?_)⟩
  exact h.of_part (infix_of_measured_chars hline)

theorem wrapWords_returns {text : List Char} (h : column.Counts (joinWords (words text))) :
    ∃ lines, column.wrapWords text = .ok lines := by
  have hwords : ∀ word ∈ [] ++ words text, IsWord word := fun _ => isWord_of_mem_words
  have hwalk := column.counting.breakWordsFrom column.checked_measure [] (words text)
  refine ⟨_, hwalk.symm.trans (if_pos fun line hline => ?_)⟩
  exact h.of_part (infix_of_measured_words hwords hline)

theorem wrapParagraph_returns {paragraph : List Char} (h : column.Counts (joined paragraph)) :
    ∃ lines, column.wrapParagraph paragraph = .ok lines := by
  rw [wrapParagraph_eq, if_pos fun line hline => h.of_part (infix_of_measured hline)]
  exact ⟨_, rfl⟩

end

end Column

end Folio
