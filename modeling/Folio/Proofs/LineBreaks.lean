import Folio.Proofs.Cutting
import Folio.Proofs.Measured
import Folio.Proofs.Wrapping

/-!
# Line breaks

Text that is broken at characters is cut into pieces, each with as much as fits. Text that is broken
between words is typeset (`Typeset`): words are set together on a line as long as the line fits, and
a word that does not fit a line of its own is broken at characters. From that it follows where every
word stands and what each line had no room for (`wrapParagraph_breaks`), whatever the widths of the
characters and of the column are.
-/

set_option autoImplicit false

namespace Folio

namespace Column

variable (fits : Line → Bool)

/-! ## Breaking at characters -/

/-- A line may stand in the column: it fits, or there is nothing in it to break. -/
def IsSet (line : Line) : Prop := fits line ∨ ∃ c, line = [c]

theorem isCutting_charLinesFrom {line : Line} (h : line = [] ∨ IsSet fits line)
    (cs : List Char) :
    IsCutting (IsSet fits) (line ++ cs) (charLinesFrom fits line cs) := by
  induction cs generalizing line with
  | nil =>
    by_cases hl : line = []
    · subst hl
      exact ⟨rfl, by simp [charLinesFrom_nil], by simp [charLinesFrom_nil]⟩
    · have hlast : charLinesFrom fits line [] = [line] := by simp [charLinesFrom_nil, hl]
      rw [hlast]
      exact ⟨by simp, by simpa using hl, by simpa using h.resolve_left hl⟩
  | cons c cs ih =>
    rw [charLinesFrom_cons]
    split
    · rename_i hfits
      simpa using ih (.inr (.inl hfits))
    · have hsingle : IsCutting (IsSet fits) ([c] ++ cs) (charLinesFrom fits [c] cs) :=
        ih (.inr (.inr ⟨c, rfl⟩))
      split
      · rename_i hl
        rw [List.isEmpty_iff.1 hl]
        exact hsingle
      · rename_i hl
        have hne : line ≠ [] := fun hnil => hl (List.isEmpty_iff.2 hnil)
        exact isCutting_cons_iff.2 ⟨hne, h.resolve_left hne, c :: cs, rfl, hsingle⟩

theorem isFull_charLinesFrom {line : Line} (h : line = [] ∨ IsSet fits line)
    (cs : List Char) : IsFull (fits ·) (charLinesFrom fits line cs) := by
  induction cs generalizing line with
  | nil =>
    rw [charLinesFrom_nil]
    split
    · exact .nil
    · exact .singleton line
  | cons c cs ih =>
    rw [charLinesFrom_cons]
    split
    · rename_i hfits
      exact ih (.inr (.inl hfits))
    · rename_i hfits
      have hstands : IsSet fits [c] := .inr ⟨c, rfl⟩
      split
      · exact ih (.inr hstands)
      · have hcut := isCutting_charLinesFrom fits (.inr hstands) cs
        rw [isFull_cons_iff hcut.inhabited, hcut.flatten]
        refine ⟨fun x hx => ?_, ih (.inr hstands)⟩
        cases hx
        exact hfits

theorem isCutting_charLines (text : List Char) :
    IsCutting (IsSet fits) text (charLines fits text) :=
  isCutting_charLinesFrom fits (.inl rfl) text

theorem isFull_charLines (text : List Char) : IsFull (fits ·) (charLines fits text) :=
  isFull_charLinesFrom fits (.inl rfl) text

/-! ## Breaking between words -/

/-- The words are set in lines. Words may share a line that fits and has no room for the next word;
a word that does not fit is broken at characters. -/
inductive Typeset : List (List Char) → List Line → Prop
  | nil : Typeset [] []
  | line {words rest : List (List Char)} {lines : List Line} (hne : words ≠ [])
      (hfits : fits (joinWords words))
      (hfull : ∀ word ∈ rest.head?, ¬ fits (joinWords (words ++ [word])))
      (h : Typeset rest lines) : Typeset (words ++ rest) (joinWords words :: lines)
  | broken {word : List Char} {rest : List (List Char)} {lines : List Line}
      (hfits : ¬ fits word) (h : Typeset rest lines) :
      Typeset (word :: rest) (charLines fits word ++ lines)

/-- The current line, if there is one, is left when the next word has no room on it. -/
theorem Typeset.after_line {current words : List (List Char)} {word : List Char}
    {lines : List Line} (hfits : current ≠ [] → fits (joinWords current))
    (hfull : ¬ fits (joinWords (current ++ [word])))
    (h : Typeset fits (word :: words) lines) :
    Typeset fits (current ++ word :: words)
      ((if current.isEmpty then [] else [joinWords current]) ++ lines) := by
  by_cases hnil : current = []
  · subst hnil
    exact h
  · rw [if_neg (by simpa using hnil)]
    refine .line hnil (hfits hnil) (fun next hnext => ?_) h
    cases hnext
    exact hfull

/-- What the walk carries: the words of the current line, which fits. -/
theorem typeset_wordLinesFrom {current words : List (List Char)}
    (hwords : ∀ word ∈ current ++ words, IsWord word)
    (hfits : current ≠ [] → fits (joinWords current)) :
    Typeset fits (current ++ words) (wordLinesFrom fits (joinWords current) words) := by
  induction words generalizing current with
  | nil =>
    have hempty := isEmpty_joinWords fun w hw => hwords w (List.mem_append_left [] hw)
    by_cases h : current = []
    · subst h
      exact .nil
    · have hlast := Typeset.line h (hfits h) (by simp) .nil
      simpa [wordLinesFrom_nil, hempty, h] using hlast
  | cons word words ih =>
    have hcurrent : ∀ w ∈ current, IsWord w := fun w hw =>
      hwords w (List.mem_append_left _ hw)
    have hlater : ∀ w ∈ word :: words, IsWord w := fun w hw =>
      hwords w (List.mem_append_right current hw)
    rw [wordLinesFrom_cons, append_joinWords hcurrent, isEmpty_joinWords hcurrent]
    by_cases hjoined : fits (joinWords (current ++ [word]))
    · have hset : ∀ w ∈ current ++ [word] ++ words, IsWord w := by simpa using hwords
      have hnext := ih hset fun _ => hjoined
      rw [if_pos hjoined]
      simpa using hnext
    · rw [if_neg hjoined]
      by_cases hword : fits word
      · have hset : ∀ w ∈ [word] ++ words, IsWord w := hlater
        have hnext := ih hset fun _ => hword
        rw [if_pos hword]
        exact .after_line fits hfits hjoined hnext
      · have hempty : ∀ w ∈ [] ++ words, IsWord w := fun w hw =>
          hlater w (List.mem_cons_of_mem word hw)
        have hrest := ih hempty (absurd rfl)
        rw [if_neg hword, List.append_assoc]
        exact .after_line fits hfits hjoined (.broken hword hrest)

theorem typeset_wordLines (text : List Char) :
    Typeset fits (words text) (wordLines fits text) := by
  have hwords : ∀ word ∈ [] ++ words text, IsWord word := fun _ => isWord_of_mem_words
  exact typeset_wordLinesFrom fits hwords (absurd rfl)

/-! ## Where the words stand -/

theorem eq_nil_of_flatten {words : List (List Char)} (hwords : ∀ word ∈ words, IsWord word)
    (h : words.flatten = []) : words = [] :=
  List.eq_nil_iff_forall_not_mem.2 fun word hw =>
    (hwords word hw).ne_nil (List.flatten_eq_nil_iff.1 h word hw)

/-- What the letters of the words say about how far two divisions of them have come. -/
theorem exists_append_of_flatten {a b c d : List (List Char)} {more : List Char}
    (hwords : ∀ word ∈ a ++ b, IsWord word) (h : a ++ b = c ++ d)
    (hflatten : a.flatten ++ more = c.flatten) :
    ∃ e, c = a ++ e ∧ b = e ++ d ∧ more = e.flatten := by
  rcases List.append_eq_append_iff.1 h with ⟨e, rfl, rfl⟩ | ⟨e, rfl, rfl⟩
  · rw [List.flatten_append] at hflatten
    exact ⟨e, rfl, rfl, List.append_cancel_left hflatten⟩
  · rw [List.flatten_append, List.append_assoc, List.append_right_eq_self,
      List.append_eq_nil_iff] at hflatten
    have he : e = [] := eq_nil_of_flatten (fun word hw => hwords word (by simp [hw])) hflatten.1
    subst he
    exact ⟨[], by simp, rfl, hflatten.2⟩

theorem exists_joinWords_append {before : List (List Char)}
    (h : ∀ word ∈ before, IsWord word) (word : List Char) (after : List (List Char)) :
    ∃ left right, joinWords (before ++ word :: after) = left ++ word ++ right ∧
      letters left = before.flatten := by
  have hright : ∃ right, joinWords (word :: after) = word ++ right := by
    by_cases ha : after = []
    · subst ha
      exact ⟨[], by simp⟩
    · exact ⟨_, joinWords_cons word ha⟩
  obtain ⟨right, hright⟩ := hright
  by_cases hb : before = []
  · subst hb
    exact ⟨[], right, hright, rfl⟩
  · refine ⟨joinWords before ++ [' '], right, ?_, ?_⟩
    · rw [joinWords_append hb (List.cons_ne_nil word after), hright]
      simp
    · have hspace : letters [' '] = [] := rfl
      rw [letters_append, letters_joinWords h, hspace, List.append_nil]

section
variable {fits} {words : List (List Char)} {lines : List Line}

theorem Typeset.letters_eq (h : Typeset fits words lines) (hwords : ∀ word ∈ words, IsWord word) :
    letters lines.flatten = words.flatten := by
  induction h with
  | nil => rfl
  | @line words rest lines hne hfits hfull h ih =>
    rw [List.forall_mem_append] at hwords
    rw [List.flatten_cons, letters_append, letters_joinWords hwords.1, ih hwords.2,
      List.flatten_append]
  | @broken word rest lines hfits h ih =>
    rw [List.forall_mem_cons] at hwords
    rw [List.flatten_append, letters_append, flatten_charLines,
      letters_of_forall hwords.1.unseparated, ih hwords.2, List.flatten_cons]

theorem Typeset.stands (h : Typeset fits words lines) (hwords : ∀ word ∈ words, IsWord word) :
    ∀ line ∈ lines, line ≠ [] ∧ IsSet fits line := by
  induction h with
  | nil => simp
  | @line words rest lines hne hfits hfull h ih =>
    rw [List.forall_mem_append] at hwords
    exact List.forall_mem_cons.2 ⟨⟨joinWords_ne_nil hwords.1 hne, .inl hfits⟩, ih hwords.2⟩
  | @broken word rest lines hfits h ih =>
    have hcut := isCutting_charLines fits word
    refine List.forall_mem_append.2 ⟨fun line hl => ?_, ih (List.forall_mem_cons.1 hwords).2⟩
    exact ⟨hcut.inhabited line hl, hcut.allowed line hl⟩

theorem Typeset.spaced (h : Typeset fits words lines) (hwords : ∀ word ∈ words, IsWord word) :
    ∀ line ∈ lines, Spaced line := by
  induction h with
  | nil => simp
  | @line words rest lines hne hfits hfull h ih =>
    rw [List.forall_mem_append] at hwords
    exact List.forall_mem_cons.2 ⟨spaced_joinWords hwords.1, ih hwords.2⟩
  | @broken word rest lines hfits h ih =>
    rw [List.forall_mem_cons] at hwords
    refine List.forall_mem_append.2 ⟨fun line hl => spaced_of_forall fun c hc => ?_, ih hwords.2⟩
    refine hwords.1.unseparated c ?_
    rw [← flatten_charLines fits word]
    exact List.mem_flatten.2 ⟨line, hl, hc⟩

theorem Typeset.eq_nil (h : Typeset fits [] lines) : lines = [] := by
  generalize hw : ([] : List (List Char)) = words at h
  cases h with
  | nil => rfl
  | line hne => exact absurd (List.append_eq_nil_iff.1 hw.symm).1 hne
  | broken => cases hw

theorem Typeset.whole (h : Typeset fits words lines) (hwords : ∀ word ∈ words, IsWord word)
    {before after : List (List Char)} {word : List Char} (hsplit : words = before ++ word :: after)
    (hword : fits word) :
    ∃ above line below left right, lines = above ++ line :: below ∧
      line = left ++ word ++ right ∧ letters (above.flatten ++ left) = before.flatten := by
  induction h generalizing before with
  | nil => simp at hsplit
  | @line words rest lines hne hfits hfull h ih =>
    rw [List.forall_mem_append] at hwords
    -- A word behind this line; its own induction hypothesis says where.
    have hbehind (later : List (List Char)) (hbefore : before = words ++ later)
        (hrest : rest = later ++ word :: after) : ∃ above line below left right,
          joinWords words :: lines = above ++ line :: below ∧ line = left ++ word ++ right ∧
            letters (above.flatten ++ left) = before.flatten := by
      obtain ⟨above, line, below, left, right, rfl, hline, hletters⟩ := ih hwords.2 hrest
      refine ⟨joinWords words :: above, line, below, left, right, rfl, hline, ?_⟩
      rw [List.flatten_cons, List.append_assoc, letters_append, letters_joinWords hwords.1,
        hletters, hbefore, List.flatten_append]
    rcases List.append_eq_append_iff.1 hsplit with ⟨later, hbefore, hrest⟩ | ⟨inside, rfl, hrest⟩
    · exact hbehind later hbefore hrest
    · cases inside with
      | nil => exact hbehind [] (by simp) hrest.symm
      | cons first inside =>
        cases hrest
        obtain ⟨left, right, hline, hletters⟩ := exists_joinWords_append
          (List.forall_mem_append.1 hwords.1).1 word inside
        exact ⟨[], _, lines, left, right, rfl, hline, hletters⟩
  | @broken first rest lines hfits h ih =>
    rw [List.forall_mem_cons] at hwords
    cases before with
    | nil =>
      cases hsplit
      exact absurd hword hfits
    | cons _ before =>
      cases hsplit
      obtain ⟨above, line, below, left, right, rfl, hline, hletters⟩ := ih hwords.2 rfl
      refine ⟨charLines fits first ++ above, line, below, left, right, by simp, hline, ?_⟩
      rw [List.flatten_append, List.append_assoc, letters_append, flatten_charLines,
        letters_of_forall hwords.1.unseparated, hletters, List.flatten_cons]

/-- A piece of a word that is broken is no text of whole words, except for a word of one character
that does not fit. -/
theorem not_fits_of_piece {word : List Char} {rest before inside after : List (List Char)}
    {above below : List Line} {line : Line} (hword : IsWord word) (hfits : ¬ fits word)
    (hlines : charLines fits word = above ++ line :: below)
    (hwords : word :: rest = before ++ (inside ++ after))
    (habove : letters above.flatten = before.flatten) (hline : letters line = inside.flatten) :
    ¬ fits line := by
  have hne : line ≠ [] :=
    (isCutting_charLines fits word).inhabited line (hlines ▸ by simp)
  have hsplit : word = above.flatten ++ (line ++ below.flatten) := by
    rw [← flatten_charLines fits word, hlines, List.flatten_append, List.flatten_cons]
  have hlength := congrArg List.length hsplit
  have hpos := List.length_pos_of_ne_nil hne
  simp only [List.length_append] at hlength
  rw [letters_of_forall fun c hc => hword.unseparated c (by rw [hsplit]; simp [hc])] at hline
  cases before with
  | nil =>
    cases inside with
    | nil => exact absurd hline hne
    | cons _ inside =>
      cases hwords
      -- The piece begins with the whole word, so that it is the whole word.
      have hinside : inside.flatten = [] := by
        rw [hline, List.flatten_cons, List.length_append] at hlength
        exact List.eq_nil_of_length_eq_zero (by omega)
      rwa [hline, List.flatten_cons, hinside, List.append_nil]
  | cons _ before =>
    cases hwords
    have hbefore : (letters above.flatten).length ≤ above.flatten.length :=
      List.length_filter_le _ _
    rw [habove, List.flatten_cons, List.length_append] at hbefore
    omega

theorem Typeset.full (h : Typeset fits words lines) (hwords : ∀ word ∈ words, IsWord word)
    {above below : List Line} {line : Line} {before inside after : List (List Char)}
    (hlines : lines = above ++ line :: below) (hsplit : words = before ++ (inside ++ after))
    (habove : letters above.flatten = before.flatten) (hline : letters line = inside.flatten)
    (hfits : fits line) (hbelow : below ≠ []) :
    ∃ next later, after = next :: later ∧ ¬ fits (line ++ ' ' :: next) := by
  induction h generalizing above before with
  | nil => simp at hlines
  | @line words rest lines hne hset hfull h ih =>
    have hone := (List.forall_mem_append.1 hwords).1
    cases above with
    | nil =>
      cases hlines
      have hbefore : before = [] := by
        refine eq_nil_of_flatten (fun w hw => hwords w ?_) habove.symm
        rw [hsplit]
        exact List.mem_append_left _ hw
      subst hbefore
      rw [letters_joinWords hone, ← List.append_nil words.flatten] at hline
      obtain ⟨e, -, hrest, he⟩ := exists_append_of_flatten (c := inside) hwords hsplit hline
      have henil : e = [] := by
        refine eq_nil_of_flatten (fun w hw => hwords w ?_) he.symm
        rw [hrest]
        simp [hw]
      subst henil
      cases rest with
      | nil => exact absurd h.eq_nil hbelow
      | cons next rest =>
        refine ⟨next, rest, hrest.symm, ?_⟩
        have hnext := hfull next rfl
        rwa [joinWords_append hne (List.cons_ne_nil next []), joinWords_singleton] at hnext
    | cons first above =>
      cases hlines
      rw [List.flatten_cons, letters_append, letters_joinWords hone] at habove
      obtain ⟨e, -, hrest, he⟩ := exists_append_of_flatten hwords hsplit habove
      exact ih (List.forall_mem_append.1 hwords).2 rfl hrest he
  | @broken word rest lines hword h ih =>
    obtain ⟨hone, hlater⟩ := List.forall_mem_cons.1 hwords
    -- A line behind those of the broken word; its own induction hypothesis says what follows.
    have hbehind (later : List Line) (habove' : above = charLines fits word ++ later)
        (hlines' : lines = later ++ line :: below) :
        ∃ next more, after = next :: more ∧ ¬ fits (line ++ ' ' :: next) := by
      rw [habove', List.flatten_append, letters_append, flatten_charLines,
        letters_of_forall hone.unseparated] at habove
      have hflatten : [word].flatten ++ letters later.flatten = before.flatten := by
        simpa using habove
      obtain ⟨e, -, hrest, he⟩ := exists_append_of_flatten hwords hsplit hflatten
      exact ih hlater hlines' hrest he
    rcases List.append_eq_append_iff.1 hlines with ⟨later, habove', hlines'⟩ | ⟨inner, hpieces, hl⟩
    · exact hbehind later habove' hlines'
    · cases inner with
      | nil => exact hbehind [] (by simpa using hpieces.symm) hl.symm
      | cons piece inner =>
        cases hl
        exact absurd hfits (not_fits_of_piece hone hword hpieces hsplit habove hline)

end

theorem stands_paragraphLines (paragraph : List Char) :
    ∀ line ∈ paragraphLines fits paragraph, line ≠ [] ∧ IsSet fits line := by
  intro line hline
  have hcut := isCutting_charLines fits paragraph
  unfold paragraphLines at hline
  split at hline
  · exact ⟨hcut.inhabited line hline, hcut.allowed line hline⟩
  · exact (typeset_wordLines fits paragraph).stands (fun _ => isWord_of_mem_words) line hline

/-! ## Lines of a column -/

/-- A line may stand in the column: it fits, or there is nothing in it to break. -/
def Stands (column : Column) (line : Line) : Prop := column.fits line = .ok true ∨ ∃ c, line = [c]

/-- The words are broken where there is no room for them. Where a line or a word stands is told by
the letters before it. -/
structure BreaksWords (column : Column) (words : List (List Char)) (lines : List Line) :
    Prop where
  /-- A word that fits is not broken. -/
  whole : ∀ before word after, words = before ++ word :: after → column.fits word = .ok true →
    ∃ above line below left right, lines = above ++ line :: below ∧
      line = left ++ word ++ right ∧ letters (above.flatten ++ left) = before.flatten
  /-- A line that fits and holds whole words has no room for the next one. -/
  full : ∀ above line below before inside after, lines = above ++ line :: below →
    words = before ++ inside ++ after → letters above.flatten = before.flatten →
    letters line = inside.flatten → column.fits line = .ok true → below ≠ [] →
    ∃ next later, after = next :: later ∧ column.fits (line ++ ' ' :: next) = .ok false

section
variable {column : Column} {text : List Char} {lines : List Line}

theorem isSet_answer {line : Line} : IsSet (column.answer false) line ↔ column.Stands line :=
  or_congr_left answer_false_iff

theorem stands_wrapParagraph (h : column.wrapParagraph text = .ok lines) :
    ∀ line ∈ lines, line ≠ [] ∧ column.Stands line := by
  intro line hline
  rw [eq_paragraphLines h false] at hline
  exact (stands_paragraphLines _ text line hline).imp_right isSet_answer.1

/-- A line has no room for the first character of the next one. -/
theorem full_wrapChars (h : column.wrapChars text = .ok lines) :
    lines.IsChain fun line next => ∀ c ∈ next.head?, column.fits (line ++ [c]) = .ok false := by
  have hfull := isFull_charLines (column.answer true) text
  rw [← eq_charLines h true] at hfull
  exact hfull.imp fun line next hnext c hc => not_answer_true_iff.1 (hnext c hc)

theorem breaksWords_wrapWords (h : column.wrapWords text = .ok lines) :
    column.BreaksWords (words text) lines where
  whole before word after hsplit hfits := by
    rw [eq_wordLines h false]
    exact (typeset_wordLines _ text).whole (fun _ => isWord_of_mem_words) hsplit
      (answer_false_iff.2 hfits)
  full above line below before inside after hlines hsplit habove hline hfits hbelow := by
    obtain ⟨next, later, hafter, hnext⟩ := (typeset_wordLines (column.answer true) text).full
      (fun _ => isWord_of_mem_words) ((eq_wordLines h true).symm.trans hlines)
      (hsplit.trans (List.append_assoc _ _ _)) habove hline (answer_of_fits hfits true) hbelow
    exact ⟨next, later, hafter, not_answer_true_iff.1 hnext⟩

end

/-- No line of a paragraph is empty or overflows, single characters apart; text that is broken at
characters is cut as late as possible, and text that is broken between words keeps its letters and
is broken where there is no room. There are lines, and no panic, if the text can be counted. -/
theorem wrapParagraph_breaks (column : Column) (paragraph : List Char) :
    (∀ lines, column.wrapParagraph paragraph = .ok lines →
      ∀ line ∈ lines, line ≠ [] ∧ (column.fits line = .ok true ∨ ∃ c, line = [c])) ∧
    (∀ lines, column.wrapChars paragraph = .ok lines → lines.flatten = paragraph ∧
      lines.IsChain fun line next => ∀ c ∈ next.head?, column.fits (line ++ [c]) = .ok false) ∧
    (∀ lines, column.wrapWords paragraph = .ok lines →
      letters lines.flatten = letters paragraph ∧ (∀ line ∈ lines, Spaced line) ∧
        column.BreaksWords (words paragraph) lines) ∧
    (column.Counts (joined paragraph) → ∃ lines, column.wrapParagraph paragraph = .ok lines) ∧
    (column.Counts paragraph → ∃ lines, column.wrapChars paragraph = .ok lines) ∧
    (column.Counts (joinWords (words paragraph)) →
      ∃ lines, column.wrapWords paragraph = .ok lines) := by
  refine ⟨fun lines h => stands_wrapParagraph h, fun lines h => ⟨?_, full_wrapChars h⟩,
    fun lines h => ?_, wrapParagraph_returns, wrapChars_returns, wrapWords_returns⟩
  · rw [eq_charLines h false, flatten_charLines]
  · have hset := typeset_wordLines (column.answer false) paragraph
    have hwords : ∀ word ∈ words paragraph, IsWord word := fun _ => isWord_of_mem_words
    rw [← eq_wordLines h false] at hset
    exact ⟨(hset.letters_eq hwords).trans (flatten_words paragraph), hset.spaced hwords,
      breaksWords_wrapWords h⟩

/-- Four characters fit a line, so that the word between two short ones is broken. -/
theorem wrapParagraph_breaks_long_word :
    let column : Column := { charWidth := fun _ => 500, fontSize := 10, maxWidth := 20 }
    let paragraph := ['a', 'b', ' ', 'c', 'd', 'e', 'f', 'g', 'h', ' ', 'i']
    let lines : List Line := [['a', 'b'], ['c', 'd', 'e', 'f'], ['g', 'h'], ['i']]
    let pieces : List Line := [['a', 'b', ' ', 'c'], ['d', 'e', 'f', 'g'], ['h', ' ', 'i']]
    (column.wrapParagraph paragraph = .ok lines ∧ column.wrapWords paragraph = .ok lines ∧
      column.wrapChars paragraph = .ok pieces) ∧
    (∀ line ∈ lines, line ≠ [] ∧ (column.fits line = .ok true ∨ ∃ c, line = [c])) ∧
    (pieces.flatten = paragraph ∧
      pieces.IsChain fun line next => ∀ c ∈ next.head?, column.fits (line ++ [c]) = .ok false) ∧
    (∀ line ∈ lines, Spaced line) ∧
    (column.fits ['i'] = .ok true ∧ ∃ above line below left right,
      lines = above ++ line :: below ∧ line = left ++ ['i'] ++ right ∧
        letters (above.flatten ++ left) = ['a', 'b', 'c', 'd', 'e', 'f', 'g', 'h']) ∧
    (column.fits ['a', 'b'] = .ok true ∧ ∃ next later,
      [['c', 'd', 'e', 'f', 'g', 'h'], ['i']] = next :: later ∧
        column.fits (['a', 'b'] ++ ' ' :: next) = .ok false) ∧
    (column.Counts paragraph ∧ ∃ lines, column.wrapChars paragraph = .ok lines) := by
  intro column paragraph lines pieces
  have hlines : column.wrapParagraph paragraph = .ok lines := by decide
  have hwords : column.wrapWords paragraph = .ok lines := by decide
  have hchars : column.wrapChars paragraph = .ok pieces := by decide
  have hi : column.fits ['i'] = .ok true := by decide
  have hab : column.fits ['a', 'b'] = .ok true := by decide
  have hcounts : column.Counts paragraph := by decide
  obtain ⟨hstands, hcut, hset, -, hreturns, -⟩ := column.wrapParagraph_breaks paragraph
  obtain ⟨-, hspaced, hbreaks⟩ := hset lines hwords
  exact ⟨⟨hlines, hwords, hchars⟩, hstands lines hlines, hcut pieces hchars, hspaced,
    ⟨hi, hbreaks.whole [['a', 'b'], ['c', 'd', 'e', 'f', 'g', 'h']] ['i'] [] (by decide) hi⟩,
    ⟨hab, hbreaks.full [] ['a', 'b'] _ [] [['a', 'b']] _ rfl rfl rfl rfl hab (by decide)⟩,
    hcounts, hreturns hcounts⟩

end Column

end Folio
