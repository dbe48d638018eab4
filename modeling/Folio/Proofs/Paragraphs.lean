import Folio.Proofs.LineBreaks

/-!
# Paragraphs

Every line of a text is a paragraph of its own. A carriage return at its end is a blank like others,
so that the lines of a text are its paragraphs however they end (`paragraphs_eq`). Each is laid out
without regard to its neighbours: a blank one as a blank line, any other as lines that are not empty
(`wrapText_by_lines`).
-/

set_option autoImplicit false

namespace Folio

namespace Text

/-! ## Lines -/

/-- The lines of a text, between its line feeds. -/
def lines (text : List Char) : List (List Char) := splitWhere (· == '\n') text

/-- A text with carriage returns put before some of its line feeds. -/
inductive Returned : List Char → List Char → Prop
  | nil : Returned [] []
  | char {a b : List Char} (c : Char) (h : Returned a b) : Returned (c :: a) (c :: b)
  | lineFeed {a b : List Char} (h : Returned a b) : Returned ('\n' :: a) ('\r' :: '\n' :: b)

/-- A line with blanks put at its ends. -/
def Padded (line padded : List Char) : Prop :=
  ∃ before after, Blanks before ∧ Blanks after ∧ '\n' ∉ before ∧ '\n' ∉ after ∧
    padded = before ++ line ++ after

theorem lines_lineFeed (text : List Char) : lines ('\n' :: text) = [] :: lines text := rfl

theorem exists_lines_cons {c : Char} (hc : c ≠ '\n') (text : List Char) :
    ∃ line rest, lines text = line :: rest ∧ lines (c :: text) = (c :: line) :: rest := by
  obtain ⟨line, rest, h⟩ := List.exists_cons_of_ne_nil (splitWhere_ne_nil (· == '\n') text)
  refine ⟨line, rest, h, ?_⟩
  rw [lines, splitWhere, if_neg (by simpa using hc), h]

/-- A carriage return before a line feed is the end of a line. -/
theorem Returned.lines {a b : List Char} (h : Returned a b) :
    List.Forall₂ (fun line returned => returned = line ∨ returned = line ++ ['\r'])
      (lines a) (lines b) := by
  induction h with
  | nil => exact .cons (.inl rfl) .nil
  | @char a b c h ih =>
    by_cases hc : c = '\n'
    · subst hc
      rw [lines_lineFeed, lines_lineFeed]
      exact .cons (.inl rfl) ih
    · obtain ⟨line, rest, ha, hca⟩ := exists_lines_cons hc a
      obtain ⟨line', rest', hb, hcb⟩ := exists_lines_cons hc b
      rw [ha, hb] at ih
      obtain ⟨hline, hrest⟩ := List.forall₂_cons.1 ih
      rw [hca, hcb]
      refine .cons ?_ hrest
      rcases hline with rfl | rfl
      · exact .inl rfl
      · exact .inr rfl
  | @lineFeed a b h ih =>
    obtain ⟨line, rest, hb, hcb⟩ := exists_lines_cons (c := '\r') (by decide) ('\n' :: b)
    rw [lines_lineFeed] at hb
    cases hb
    rw [lines_lineFeed, hcb]
    exact .cons (.inr rfl) ih

/-- Taking the carriage returns away that stand before line feeds. -/
theorem Replaces.returned {text result : List Char} (h : Replaces ['\r', '\n'] ['\n'] text result) :
    Returned result text := by
  induction h with
  | nil => exact .nil
  | copied other rest ih => exact .char _ ih
  | replaced rest ih => exact .lineFeed ih

theorem Padded.trim_eq {line padded : List Char} (h : Padded line padded) :
    trim padded = trim line := by
  obtain ⟨before, after, hb, ha, -, -, rfl⟩ := h
  exact trim_padded hb ha line

theorem map_trim_of_padded {a b : List (List Char)} (h : List.Forall₂ Padded a b) :
    b.map trim = a.map trim := by
  induction h with
  | nil => rfl
  | cons h _ ih => rw [List.map_cons, List.map_cons, h.trim_eq, ih]

theorem Returned.padded {a b : List Char} (h : Returned a b) :
    List.Forall₂ Padded (Text.lines a) (Text.lines b) := by
  refine h.lines.imp fun line returned hline => ?_
  rcases hline with rfl | rfl
  · exact ⟨[], [], by decide, by decide, by decide, by decide, by simp⟩
  · exact ⟨[], ['\r'], by decide, by decide, by decide, by decide, rfl⟩

/-- A text is blank if all of its lines are. -/
theorem trim_eq_nil_iff_lines {text : List Char} :
    trim text = [] ↔ ∀ line ∈ lines text, trim line = [] := by
  have hmem (c : Char) : c ∈ (lines text).flatten ↔ c ∈ text ∧ c ≠ '\n' := by
    simp [lines, flatten_splitWhere]
  simp only [trim_eq_nil_iff]
  constructor
  · intro h line hline c hc
    exact h c ((hmem c).1 (List.mem_flatten.2 ⟨line, hline, hc⟩)).1
  · intro h c hc
    by_cases hlf : c = '\n'
    · subst hlf
      decide
    · obtain ⟨line, hline, hcl⟩ := List.mem_flatten.1 ((hmem c).2 ⟨hc, hlf⟩)
      exact h line hline c hcl

end Text

namespace Column

open Text

variable (column : Column)

theorem paragraphs_eq (text : List Char) : paragraphs text = (lines text).map trim :=
  (map_trim_of_padded (replaces_replaceAll (by decide) text).returned.padded).symm

theorem wrapText_eq {text : List Char} (h : trim text ≠ []) :
    column.wrapText text = breakParagraphs column.fits ((lines text).map trim) := by
  rw [wrapText, breakText, if_neg (by simpa using h), paragraphs_eq]

theorem breakParagraphs_append (a b : List (List Char)) :
    breakParagraphs column.fits (a ++ b) =
      (do return (← breakParagraphs column.fits a) ++ (← breakParagraphs column.fits b)) := by
  induction a with
  | nil => exact (bind_pure _).symm
  | cons paragraph a ih =>
    rw [List.cons_append, breakParagraphs_cons, breakParagraphs_cons, ih]
    simp only [bind_assoc, pure_bind, List.append_assoc]

/-- Paragraphs are laid out if each of them is. -/
theorem breakParagraphs_eq_ok_iff {paragraphs : List (List Char)} {laid : List Line} :
    breakParagraphs column.fits paragraphs = .ok laid ↔
      ∃ groups, laid = groups.flatten ∧
        List.Forall₂ (fun paragraph group => breakLine column.fits paragraph = .ok group)
          paragraphs groups := by
  induction paragraphs generalizing laid with
  | nil =>
    constructor
    · intro h
      exact ⟨[], (Except.ok.inj h).symm, .nil⟩
    · rintro ⟨groups, rfl, hgroups⟩
      cases hgroups
      rfl
  | cons paragraph paragraphs ih =>
    rw [breakParagraphs_cons]
    constructor
    · intro h
      obtain ⟨group, hgroup, hrest⟩ := Checked.of_bind h
      obtain ⟨later, hlater, hlaid⟩ := Checked.of_bind hrest
      obtain ⟨groups, rfl, hgroups⟩ := ih.1 hlater
      exact ⟨group :: groups, (Except.ok.inj hlaid).symm, .cons hgroup hgroups⟩
    · rintro ⟨groups, rfl, hgroups⟩
      obtain ⟨group, groups, hgroup, hlater, rfl⟩ := List.forall₂_cons_left_iff.1 hgroups
      rw [hgroup, ih.2 ⟨groups, rfl, hlater⟩]
      rfl

/-- Everything that is measured for a text can be counted. -/
def Measures (text : List Char) : Prop :=
  ∀ paragraph ∈ paragraphs text, ∀ line ∈ column.measured paragraph, column.Counts line

theorem breakLine_returns_iff (paragraph : List Char) :
    (∃ group, breakLine column.fits paragraph = .ok group) ↔
      ∀ line ∈ column.measured paragraph, column.Counts line := by
  by_cases hblank : paragraph = []
  · subst hblank
    have hnone : column.measured [] = [] := rfl
    rw [hnone]
    exact ⟨fun _ line hline => absurd hline List.not_mem_nil, fun _ => ⟨[[]], rfl⟩⟩
  · rw [breakLine, if_neg (by simpa using hblank), ← wrapParagraph, wrapParagraph_eq]
    constructor
    · rintro ⟨group, hgroup⟩
      by_contra hcounts
      rw [if_neg hcounts] at hgroup
      cases hgroup
    · intro hcounts
      exact ⟨_, if_pos hcounts⟩

theorem breakParagraphs_returns_iff (paragraphs : List (List Char)) :
    (∃ laid, breakParagraphs column.fits paragraphs = .ok laid) ↔
      ∀ paragraph ∈ paragraphs, ∃ group, breakLine column.fits paragraph = .ok group := by
  induction paragraphs with
  | nil => exact ⟨fun _ => by simp, fun _ => ⟨[], rfl⟩⟩
  | cons paragraph paragraphs ih =>
    rw [List.forall_mem_cons, ← ih, breakParagraphs_cons]
    constructor
    · rintro ⟨laid, hlaid⟩
      obtain ⟨group, hgroup, hrest⟩ := Checked.of_bind hlaid
      obtain ⟨later, hlater, -⟩ := Checked.of_bind hrest
      exact ⟨⟨group, hgroup⟩, later, hlater⟩
    · rintro ⟨⟨group, hgroup⟩, later, hlater⟩
      rw [hgroup, hlater]
      exact ⟨group ++ later, rfl⟩

/-- A text is laid out if and only if all that is measured for it can be counted. -/
theorem wrapText_returns_iff (text : List Char) :
    (∃ laid, column.wrapText text = .ok laid) ↔ column.Measures text := by
  by_cases hblank : trim text = []
  · have hnone : column.wrapText text = .ok [] := by
      rw [wrapText, breakText, if_pos (by simpa using hblank)]
      rfl
    refine ⟨fun _ paragraph hparagraph line hline => ?_, fun _ => ⟨[], hnone⟩⟩
    rw [paragraphs_eq, List.mem_map] at hparagraph
    obtain ⟨source, hsource, rfl⟩ := hparagraph
    rw [trim_eq_nil_iff_lines.1 hblank source hsource] at hline
    exact absurd hline List.not_mem_nil
  · rw [wrapText_eq _ hblank, breakParagraphs_returns_iff, Measures, paragraphs_eq]
    exact forall₂_congr fun paragraph _ => column.breakLine_returns_iff paragraph

theorem wrapText_congr {a b : List Char} (h : List.Forall₂ Padded (lines a) (lines b)) :
    column.wrapText b = column.wrapText a := by
  have hparagraphs : paragraphs b = paragraphs a := by
    rw [paragraphs_eq, paragraphs_eq, map_trim_of_padded h]
  have hblank (text : List Char) : trim text = [] ↔ ∀ p ∈ paragraphs text, p = [] := by
    rw [trim_eq_nil_iff_lines, paragraphs_eq, List.forall_mem_map]
  have hsame : (trim b).isEmpty = (trim a).isEmpty := by
    rw [Bool.eq_iff_iff, List.isEmpty_iff, List.isEmpty_iff, hblank, hblank, hparagraphs]
  rw [wrapText, wrapText, breakText, breakText, hparagraphs, hsame]

/-- A paragraph that is not blank takes a line at least. -/
theorem wrapParagraph_ne_nil {line : List Char} (h : trim line ≠ []) {group : List Line}
    (hgroup : column.wrapParagraph (trim line) = .ok group) : group ≠ [] := by
  rintro rfl
  have hvisible := visible_paragraphLines (column.answer false) (trim line)
  rw [← eq_paragraphLines hgroup, List.flatten_nil, visible_nil, visible_trim, eq_comm, visible,
    List.filter_eq_nil_iff] at hvisible
  refine h (trim_eq_nil_iff.2 fun c hc => ?_)
  simpa using hvisible c hc

/-- The display lines of a line of a text. -/
theorem breakLine_trim_eq_ok_iff {line : List Char} {group : List Line} :
    breakLine column.fits (trim line) = .ok group ↔
      (trim line = [] → group = [[]]) ∧
      (trim line ≠ [] →
        column.wrapParagraph (trim line) = .ok group ∧ group ≠ [] ∧ [] ∉ group) := by
  unfold breakLine
  by_cases hblank : trim line = []
  · rw [if_pos (by simpa using hblank)]
    exact ⟨fun h => ⟨fun _ => (Except.ok.inj h).symm, absurd hblank⟩,
      fun h => congrArg Except.ok (h.1 hblank).symm⟩
  · rw [if_neg (by simpa using hblank)]
    refine ⟨fun h => ⟨fun hnil => absurd hnil hblank, fun _ => ?_⟩, fun h => (h.2 hblank).1⟩
    exact ⟨h, column.wrapParagraph_ne_nil hblank h,
      fun hmem => (stands_wrapParagraph h [] hmem).1 rfl⟩

/-- Texts are laid out line by line. A blank line becomes a blank line of its own, and any other
becomes lines that are not blank; how lines end and what blanks stand around them plays no part. So
it is with panics: there is one if and only if there is one at a line. -/
theorem wrapText_by_lines (column : Column) :
    (∀ a b, trim a ≠ [] → trim b ≠ [] → column.wrapText (a ++ '\n' :: b) =
      (do return (← column.wrapText a) ++ (← column.wrapText b))) ∧
    (∀ text laid, trim text ≠ [] → (column.wrapText text = .ok laid ↔
      ∃ groups, laid = groups.flatten ∧ List.Forall₂ (fun line group =>
        (trim line = [] → group = [[]]) ∧
        (trim line ≠ [] →
          column.wrapParagraph (trim line) = .ok group ∧ group ≠ [] ∧ [] ∉ group))
        (lines text) groups)) ∧
    (∀ a b, Returned a b → column.wrapText b = column.wrapText a) ∧
    (∀ a b, List.Forall₂ Padded (lines a) (lines b) →
      column.wrapText b = column.wrapText a) := by
  refine ⟨fun a b ha hb => ?_, fun text laid htext => ?_, fun a b h => ?_, fun a b h => ?_⟩
  · have hlines : lines (a ++ '\n' :: b) = lines a ++ lines b := splitWhere_append_cut rfl a b
    have hboth : trim (a ++ '\n' :: b) ≠ [] := by
      intro hnil
      refine ha (trim_eq_nil_iff_lines.2 fun line hline => ?_)
      exact trim_eq_nil_iff_lines.1 hnil line (by rw [hlines]; exact List.mem_append_left _ hline)
    rw [column.wrapText_eq hboth, hlines, List.map_append, breakParagraphs_append,
      column.wrapText_eq ha, column.wrapText_eq hb]
  · rw [column.wrapText_eq htext, breakParagraphs_eq_ok_iff]
    simp only [List.forall₂_map_left_iff, breakLine_trim_eq_ok_iff]
  · exact column.wrapText_congr h.padded
  · exact column.wrapText_congr h

/-- A carriage return before the line feed that is put in, blank lines, a no-break space, and a
paragraph of two lines. -/
theorem wrapText_by_lines_returns :
    let column : Column := { charWidth := fun _ => 500, fontSize := 10, maxWidth := 20 }
    let a := ['x', '\r']
    let b := ['\n', '\u00A0', '\n', 'y', ' ', 'z', 'z', 'z']
    let laid : List Line := [['x'], [], [], ['y'], ['z', 'z', 'z']]
    let returned :=
      ['x', '\r', '\r', '\n', '\n', '\u00A0', '\r', '\n', 'y', ' ', 'z', 'z', 'z']
    let padded :=
      ['x', '\r', ' ', '\n', '\x0b', '\n', '\u00A0', '\n', '\u3000', 'y', ' ', 'z', 'z', 'z', '\t']
    (trim a ≠ [] ∧ trim b ≠ [] ∧ column.wrapText a = .ok [['x']] ∧
      column.wrapText b = .ok [[], [], ['y'], ['z', 'z', 'z']] ∧
      column.wrapText (a ++ '\n' :: b) = .ok laid) ∧
    (trim (a ++ '\n' :: b) ≠ [] ∧ ∃ groups : List (List Line), laid = groups.flatten ∧
      groups.length = 4) ∧
    (Returned (a ++ '\n' :: b) returned ∧ column.wrapText returned = .ok laid) ∧
    (List.Forall₂ Padded (Text.lines (a ++ '\n' :: b)) (Text.lines padded) ∧
      column.wrapText padded = .ok laid) := by
  intro column a b laid returned padded
  obtain ⟨happend, hgroups, hreturned, hpadded⟩ := column.wrapText_by_lines
  have ha : trim a ≠ [] := by decide
  have hb : trim b ≠ [] := by decide
  have hboth : trim (a ++ '\n' :: b) ≠ [] := by decide
  have hwrapa : column.wrapText a = .ok [['x']] := by decide
  have hwrapb : column.wrapText b = .ok [[], [], ['y'], ['z', 'z', 'z']] := by decide
  have hlaid : column.wrapText (a ++ '\n' :: b) = .ok laid := by
    rw [happend a b ha hb, hwrapa, hwrapb]
    rfl
  obtain ⟨groups, hflatten, hlines⟩ := (hgroups _ laid hboth).1 hlaid
  have hlength : groups.length = 4 := hlines.length_eq.symm
  have hreturns : Returned (a ++ '\n' :: b) returned := by
    repeat first | exact .nil | apply Returned.char | apply Returned.lineFeed
  have hpads : List.Forall₂ Padded (Text.lines (a ++ '\n' :: b)) (Text.lines padded) := by
    refine .cons ⟨[], [' '], ?_⟩ (.cons ⟨['\x0b'], [], ?_⟩ (.cons ⟨[], [], ?_⟩
      (.cons ⟨['\u3000'], ['\t'], ?_⟩ .nil))) <;> decide
  exact ⟨⟨ha, hb, hwrapa, hwrapb, hlaid⟩, ⟨hboth, groups, hflatten, hlength⟩,
    ⟨hreturns, (hreturned _ _ hreturns).trans hlaid⟩, hpads, (hpadded _ _ hpads).trans hlaid⟩

end Column

end Folio
