import Folio.Proofs.LineBreaks

/-!
# The fewest lines

Where the parts of a text that fits fit as well, no other way of breaking text needs fewer lines:
lines broken at characters are a full cutting of the text, and lines broken between words that all
fit are a full cutting of the words (`wrap_fewest`). Parts do fit as long as the width of the text
can be counted and the font size is finite and not negative.
-/

set_option autoImplicit false

namespace Folio.Column

section
variable {fits : Line → Bool}

theorem inherited_joinWords {words : List (List Char)} (hwords : ∀ word ∈ words, IsWord word)
    (h : Inherited (fits · = true) (joinWords words)) :
    Inherited (fun group => fits (joinWords group)) words := by
  intro group hgroup hfits part hne hpart
  have hgroupne : group ≠ [] := by
    rintro rfl
    exact hne (List.infix_nil.1 hpart)
  have hpartwords : ∀ word ∈ part, IsWord word := fun word hw =>
    hwords word ((hpart.trans hgroup).subset hw)
  exact h _ (infix_joinWords hgroupne hgroup) hfits _ (joinWords_ne_nil hpartwords hne)
    (infix_joinWords hne hpart)

/-- Where every word fits, a line is a group of words, and no group may take the next word. -/
theorem Typeset.exists_groups {words : List (List Char)} {lines : List Line}
    (h : Typeset fits words lines) (hfits : ∀ word ∈ words, fits word) :
    ∃ groups, lines = groups.map joinWords ∧
      IsCutting (fun group => fits (joinWords group)) words groups ∧
      IsFull (fun group => fits (joinWords group)) groups := by
  induction h with
  | nil => exact ⟨[], rfl, ⟨rfl, by simp, by simp⟩, .nil⟩
  | @line words rest lines hne hset hroom h ih =>
    obtain ⟨groups, rfl, hcut, hfull⟩ := ih (List.forall_mem_append.1 hfits).2
    refine ⟨words :: groups, rfl, isCutting_cons_iff.2 ⟨hne, hset, rest, rfl, hcut⟩, ?_⟩
    rw [isFull_cons_iff hcut.inhabited, hcut.flatten]
    exact ⟨hroom, hfull⟩
  | @broken word rest lines hword h ih => exact absurd (hfits word List.mem_cons_self) hword

end

/-! ## Lines -/

variable {column : Column} {text : List Char} {lines : List Line}

theorem wrapChars_fewest (h : column.wrapChars text = .ok lines)
    (hinherited : Inherited (column.fits · = .ok true) text) {pieces : List Line}
    (hpieces : IsCutting column.Stands text pieces) : lines.length ≤ pieces.length := by
  have hanswer : (fun line => column.answer false line = true) = (column.fits · = .ok true) :=
    funext fun line => propext answer_false_iff
  have hstands : IsSet (column.answer false) = column.Stands :=
    funext fun line => propext isSet_answer
  have hcut := isCutting_charLines (column.answer false) text
  have hfull := (isFull_charLines (column.answer false) text).or_singleton hcut.inhabited
  rw [← hanswer] at hinherited
  rw [← hstands] at hpieces
  rw [eq_charLines h false]
  exact hfull.length_le hcut hpieces hinherited.or_singleton

theorem wrapWords_fewest (h : column.wrapWords text = .ok lines)
    (hinherited : Inherited (column.fits · = .ok true) (joinWords (words text)))
    (hfits : ∀ word ∈ words text, column.fits word = .ok true) {groups : List (List (List Char))}
    (hgroups : IsCutting (fun group => column.fits (joinWords group) = .ok true) (words text)
      groups) : lines.length ≤ groups.length := by
  have hanswer : (fun line => column.fits line = .ok true) = (column.answer false · = true) :=
    funext fun line => propext answer_false_iff.symm
  have hgroup : (fun group => column.fits (joinWords group) = .ok true) =
      fun group => column.answer false (joinWords group) = true :=
    funext fun group => propext answer_false_iff.symm
  rw [hanswer] at hinherited
  rw [hgroup] at hgroups
  obtain ⟨set, hlines, hcut, hfull⟩ := (typeset_wordLines (column.answer false) text).exists_groups
    fun word hword => answer_false_iff.2 (hfits word hword)
  rw [eq_wordLines h false, hlines, List.length_map]
  exact hfull.length_le hcut hgroups (inherited_joinWords (fun _ => isWord_of_mem_words) hinherited)

theorem inherited_fits (hsize : 0 ≤ column.fontSize) (hfinite : column.fontSize.isFinite)
    (hcount : column.Counts text) : Inherited (column.fits · = .ok true) text := by
  intro whole hwhole hfits part hne hpart
  have hcounts : column.Counts whole := hcount.of_part hwhole
  rw [fits_eq, if_pos hcounts] at hfits
  show column.fits part = .ok true
  rw [fits_eq, if_pos (hcounts.of_part hpart)]
  exact congrArg Except.ok (inherited_holds hsize hfinite hcount whole hwhole
    (Except.ok.inj hfits) part hne hpart)

/-- If the parts of what fits fit, no cutting of a text into lines that may stand has fewer lines
than breaking at characters, and where every word fits, no arrangement of words in lines that fit
has fewer lines than breaking between words. The parts do fit, and there are lines, if the text can
be counted. -/
theorem wrap_fewest (column : Column) (text : List Char) :
    (∀ lines, column.wrapChars text = .ok lines → Inherited (column.fits · = .ok true) text →
      ∀ pieces, IsCutting column.Stands text pieces → lines.length ≤ pieces.length) ∧
    (∀ lines, column.wrapWords text = .ok lines →
      Inherited (column.fits · = .ok true) (joinWords (words text)) →
      (∀ word ∈ words text, column.fits word = .ok true) →
      ∀ groups, IsCutting (fun group => column.fits (joinWords group) = .ok true) (words text)
        groups → lines.length ≤ groups.length) ∧
    (0 ≤ column.fontSize → column.fontSize.isFinite →
      (column.Counts text → Inherited (column.fits · = .ok true) text ∧
        ∃ lines, column.wrapChars text = .ok lines) ∧
      (column.Counts (joinWords (words text)) →
        Inherited (column.fits · = .ok true) (joinWords (words text)) ∧
          ∃ lines, column.wrapWords text = .ok lines)) := by
  refine ⟨fun lines h hinherited pieces hpieces => wrapChars_fewest h hinherited hpieces,
    fun lines h hinherited hfits groups hgroups => wrapWords_fewest h hinherited hfits hgroups,
    fun hsize hfinite => ⟨fun hcount => ?_, fun hcount => ?_⟩⟩
  · exact ⟨inherited_fits hsize hfinite hcount, wrapChars_returns hcount⟩
  · exact ⟨inherited_fits hsize hfinite hcount, wrapWords_returns hcount⟩

/-- Four characters fit a line: six characters, or the three words they make, need two lines, also
where they are broken at other places. -/
theorem wrap_fewest_four_wide :
    let column : Column := { charWidth := fun _ => 500, fontSize := 10, maxWidth := 20 }
    let text := ['a', ' ', 'b', ' ', 'c', 'd']
    let chars : List Line := [['a', ' ', 'b', ' '], ['c', 'd']]
    let set : List Line := [['a', ' ', 'b'], ['c', 'd']]
    let pieces : List Line := [['a', ' ', 'b'], [' ', 'c', 'd']]
    let groups : List (List (List Char)) := [[['a']], [['b'], ['c', 'd']]]
    (0 ≤ column.fontSize ∧ column.fontSize.isFinite ∧ column.Counts text) ∧
      (column.wrapChars text = .ok chars ∧ Inherited (column.fits · = .ok true) text ∧
        IsCutting column.Stands text pieces ∧ chars.length ≤ pieces.length) ∧
      (column.wrapWords text = .ok set ∧
        Inherited (column.fits · = .ok true) (joinWords (words text)) ∧
        (∀ word ∈ words text, column.fits word = .ok true) ∧
        IsCutting (fun group => column.fits (joinWords group) = .ok true) (words text) groups ∧
        set.length ≤ groups.length) := by
  intro column text chars set pieces groups
  obtain ⟨hchars, hwords, hcount⟩ := wrap_fewest column text
  have hsize : 0 ≤ column.fontSize := by decide
  have hfinite : column.fontSize.isFinite := by decide
  have hcounts : column.Counts text := by decide
  have hjoined : joinWords (words text) = text := by decide
  have hcut : column.wrapChars text = .ok chars := by decide
  have hset : column.wrapWords text = .ok set := by decide
  obtain ⟨hof, hofwords⟩ := hcount hsize hfinite
  have hinherited := (hof hcounts).1
  have hinherited' := (hofwords (by rwa [hjoined])).1
  have hpieces : IsCutting column.Stands text pieces :=
    ⟨rfl, by decide, by simp [pieces, Stands]; decide⟩
  have hfits : ∀ word ∈ words text, column.fits word = .ok true := by decide
  have hgroups : IsCutting (fun group => column.fits (joinWords group) = .ok true) (words text)
      groups := ⟨by decide, by decide, by decide⟩
  exact ⟨⟨hsize, hfinite, hcounts⟩,
    ⟨hcut, hinherited, hpieces, hchars chars hcut hinherited pieces hpieces⟩,
    hset, hinherited', hfits, hgroups, hwords set hset hinherited' hfits groups hgroups⟩

end Folio.Column
