import Folio.Layout.Column

/-!
# Ways of asking

Text is broken in the same way whatever monad tells whether a line fits: where two of them are
related at every question, they are related at the end (`Relating`). A plain walk knows all answers.
Where a column breaks a text without a panic, its lines are those of the plain walk that has the
answers of the column (`eq_charLines`, `eq_wordLines`, `eq_paragraphLines`, `eq_textLines`).
-/

set_option autoImplicit false

namespace Folio

/-! ## Related monads -/

/-- A relation between computations in two monads that is kept by every step. -/
structure Relating (m n : Type → Type) [Monad m] [Monad n] where
  rel : {α : Type} → m α → n α → Prop
  pure : ∀ {α : Type} (a : α), rel (Pure.pure a) (Pure.pure a)
  bind : ∀ {α β : Type} {x : m α} {y : n α} {f : α → m β} {g : α → n β},
    rel x y → (∀ a, rel (f a) (g a)) → rel (x >>= f) (y >>= g)

namespace Relating

variable {m n : Type → Type} [Monad m] [Monad n] (related : Relating m n) {fits : Line → m Bool}
  {fits' : Line → n Bool} (h : ∀ line, related.rel (fits line) (fits' line))
include h

theorem breakCharsFrom (line : Line) (cs : List Char) :
    related.rel (Column.breakCharsFrom fits line cs) (Column.breakCharsFrom fits' line cs) := by
  induction cs generalizing line with
  | nil => exact related.pure _
  | cons c cs ih =>
    refine related.bind (h _) fun fit => ?_
    split
    · exact ih _
    · split
      · exact ih _
      · exact related.bind (ih _) fun _ => related.pure _

theorem breakWordsFrom (line : Line) (words : List (List Char)) :
    related.rel (Column.breakWordsFrom fits line words)
      (Column.breakWordsFrom fits' line words) := by
  induction words generalizing line with
  | nil => exact related.pure _
  | cons word words ih =>
    refine related.bind (h _) fun fit => ?_
    split
    · exact ih _
    · refine related.bind (h _) fun fit => ?_
      split
      · exact related.bind (ih _) fun _ => related.pure _
      · refine related.bind (related.breakCharsFrom h [] word) fun _ => ?_
        exact related.bind (ih _) fun _ => related.pure _

theorem breakParagraph (paragraph : List Char) :
    related.rel (Column.breakParagraph fits paragraph) (Column.breakParagraph fits' paragraph) := by
  unfold Column.breakParagraph
  split
  · exact related.breakCharsFrom h [] paragraph
  · exact related.breakWordsFrom h [] (Column.words paragraph)

theorem breakLine (paragraph : List Char) :
    related.rel (Column.breakLine fits paragraph) (Column.breakLine fits' paragraph) := by
  unfold Column.breakLine
  split
  · exact related.pure _
  · exact related.breakParagraph h paragraph

theorem breakParagraphs (paragraphs : List (List Char)) :
    related.rel (Column.breakParagraphs fits paragraphs)
      (Column.breakParagraphs fits' paragraphs) := by
  induction paragraphs with
  | nil => exact related.pure _
  | cons paragraph paragraphs ih =>
    exact related.bind (related.breakLine h paragraph) fun _ =>
      related.bind ih fun _ => related.pure _

theorem breakText (text : List Char) :
    related.rel (Column.breakText fits text) (Column.breakText fits' text) := by
  unfold Column.breakText
  split
  · exact related.pure _
  · exact related.breakParagraphs h (Column.paragraphs text)

end Relating

namespace Column

theorem breakParagraphs_cons {m : Type → Type} [Monad m] (fits : Line → m Bool)
    (paragraph : List Char) (paragraphs : List (List Char)) :
    breakParagraphs fits (paragraph :: paragraphs) = (do
      return (← breakLine fits paragraph) ++ (← breakParagraphs fits paragraphs)) := rfl

/-! ## Plain walks -/

section
variable (fits : Line → Bool)

/-- The lines of a text that follows the characters of a line, broken at characters. -/
def charLinesFrom (line : Line) (cs : List Char) : List Line :=
  breakCharsFrom (m := Id) fits line cs

/-- The lines of a text that is broken at characters. -/
def charLines (text : List Char) : List Line := charLinesFrom fits [] text

/-- The lines of words that follow the words of a line. -/
def wordLinesFrom (line : Line) (words : List (List Char)) : List Line :=
  breakWordsFrom (m := Id) fits line words

/-- The lines of a text that is broken between words. -/
def wordLines (text : List Char) : List Line := wordLinesFrom fits [] (words text)

/-- The lines of a paragraph. -/
def paragraphLines (paragraph : List Char) : List Line :=
  if isUnspaced paragraph then charLines fits paragraph else wordLines fits paragraph

/-- The lines of a paragraph that may be blank. -/
def lineLines (paragraph : List Char) : List Line :=
  if paragraph.isEmpty then [[]] else paragraphLines fits paragraph

/-- The lines of a text. -/
def textLines (text : List Char) : List Line :=
  if (Text.trim text).isEmpty then [] else (paragraphs text).flatMap (lineLines fits)

theorem charLinesFrom_nil (line : Line) :
    charLinesFrom fits line [] = if line.isEmpty then [] else [line] := rfl

theorem charLinesFrom_cons (line : Line) (c : Char) (cs : List Char) :
    charLinesFrom fits line (c :: cs) =
      if fits (line ++ [c]) then charLinesFrom fits (line ++ [c]) cs
      else if line.isEmpty then charLinesFrom fits [c] cs
      else line :: charLinesFrom fits [c] cs := rfl

theorem wordLinesFrom_nil (line : Line) :
    wordLinesFrom fits line [] = if line.isEmpty then [] else [line] := rfl

theorem wordLinesFrom_cons (line : Line) (word : List Char) (words : List (List Char)) :
    wordLinesFrom fits line (word :: words) =
      if fits (append line word) then wordLinesFrom fits (append line word) words
      else if fits word then
        (if line.isEmpty then [] else [line]) ++ wordLinesFrom fits word words
      else (if line.isEmpty then [] else [line]) ++ charLines fits word ++
        wordLinesFrom fits [] words := rfl

theorem breakText_eq (text : List Char) :
    breakText (m := Id) fits text = textLines fits text := by
  have hparagraphs (ps : List (List Char)) :
      breakParagraphs (m := Id) fits ps = ps.flatMap (lineLines fits) := by
    induction ps with
    | nil => rfl
    | cons paragraph ps ih =>
      rw [List.flatMap_cons, ← ih, breakParagraphs_cons]
      rfl
  rw [textLines, ← hparagraphs]
  rfl

end

end Column

/-! ## What a column answers -/

/-- What is computed in two steps does not panic in either. -/
theorem Checked.of_bind {α β : Type} {x : Checked α} {f : α → Checked β} {b : β}
    (h : x >>= f = .ok b) : ∃ a, x = .ok a ∧ f a = .ok b := by
  cases x with
  | error panic => cases h
  | ok a => exact ⟨a, rfl, h⟩

/-- Computations that come to a value, if they do not panic. -/
def agreeing : Relating Checked Id where
  rel computation value := ∀ result, computation = .ok result → result = value
  pure _ _ h := (Except.ok.inj h).symm
  bind hx hf result h := by
    obtain ⟨a, ha, hresult⟩ := Checked.of_bind h
    obtain rfl := hx a ha
    exact hf a result hresult

namespace Column

variable (column : Column)

/-- Whether a line is not wider than the column; `unknown` where that can not be told. -/
def answer (unknown : Bool) (line : Line) : Bool :=
  match column.fits line with
  | .ok fit => fit
  | .error _ => unknown

theorem agreeing_answer (unknown : Bool) (line : Line) :
    agreeing.rel (column.fits line) (column.answer unknown line) := by
  intro fit h
  rw [answer, h]

variable {column} {line : Line}

theorem answer_false_iff : column.answer false line = true ↔ column.fits line = .ok true := by
  unfold answer
  cases column.fits line <;> simp

theorem not_answer_true_iff : ¬ column.answer true line = true ↔ column.fits line = .ok false := by
  unfold answer
  cases column.fits line <;> simp

theorem answer_of_fits {fit : Bool} (h : column.fits line = .ok fit) (unknown : Bool) :
    column.answer unknown line = fit := by
  rw [answer, h]

variable {text : List Char} {lines : List Line}

theorem eq_charLines (h : column.wrapChars text = .ok lines) (unknown : Bool) :
    lines = charLines (column.answer unknown) text :=
  agreeing.breakCharsFrom (column.agreeing_answer unknown) [] text lines h

theorem eq_wordLines (h : column.wrapWords text = .ok lines) (unknown : Bool) :
    lines = wordLines (column.answer unknown) text :=
  agreeing.breakWordsFrom (column.agreeing_answer unknown) [] (words text) lines h

theorem eq_paragraphLines (h : column.wrapParagraph text = .ok lines) (unknown : Bool) :
    lines = paragraphLines (column.answer unknown) text :=
  agreeing.breakParagraph (column.agreeing_answer unknown) text lines h

theorem eq_textLines (h : column.wrapText text = .ok lines) (unknown : Bool) :
    lines = textLines (column.answer unknown) text := by
  rw [← breakText_eq]
  exact agreeing.breakText (column.agreeing_answer unknown) text lines h

end Column

end Folio
