import Folio.Proofs.Measured

/-!
# Measuring lines

Breaking a paragraph measures lines: at characters lines that fit but for their last character,
between words every word as a whole. So the count of thousandths stays within a machine word where
the column has little room and no word is too long, whatever the length of the paragraph, and it
runs over in a word that is too long for it, at which the program panics (`measured_counts`).
-/

set_option autoImplicit false

namespace Folio

section
variable (charWidth : Char → UInt16)

theorem thousandths_singleton_lt (c : Char) : thousandths charWidth [c] < 2 ^ 16 :=
  (charWidth c).toNat_lt

theorem thousandths_snoc_lt (text : List Char) (c : Char) :
    thousandths charWidth (text ++ [c]) < thousandths charWidth text + 2 ^ 16 := by
  have hc := thousandths_singleton_lt charWidth c
  rw [thousandths_append]
  omega

/-- A word takes its own thousandths and those of a space. -/
theorem thousandths_append_lt (line word : Line) :
    thousandths charWidth (Column.append line word) <
      thousandths charWidth line + 2 ^ 16 + thousandths charWidth word := by
  have hspace := thousandths_singleton_lt charWidth ' '
  unfold Column.append
  split
  · omega
  · rw [← List.singleton_append, thousandths_append, thousandths_append]
    omega

end

namespace Column

section
variable {column : Column} {line : Line}

/-! ## Lines that are counted -/

/-- No line of that many thousandths fits, as long as they can be counted. -/
def Overfull (column : Column) (room : ℕ) : Prop :=
  ∀ line, room ≤ thousandths column.charWidth line → column.Counts line → ¬ column.holds line

theorem overfull_of_not_le {room : ℕ} (hroom : 0 < room) (hsize : 0 ≤ column.fontSize)
    (hfinite : column.fontSize.isFinite)
    (h : ¬ Binary32.ofInt room / 1000 * column.fontSize ≤ column.maxWidth) :
    column.Overfull room := by
  intro line hcount hcounted hholds
  have hne : line ≠ [] := by
    rintro rfl
    exact absurd hcount (not_le.2 hroom)
  have hle : column.trueWidth line ≤ column.maxWidth := of_decide_eq_true hholds
  rw [trueWidth_of_ne_nil hne] at hle
  exact h (Binary32.le_trans (Binary32.thousandths_mul_le hsize hfinite hcount hcounted) hle)

variable {room : ℕ}

theorem Overfull.lt_of_holds (h : column.Overfull room) (hcounted : column.Counts line)
    (hholds : column.holds line) : thousandths column.charWidth line < room := by
  by_contra hge
  exact h line (not_lt.1 hge) hcounted hholds

/-- What the walk carries: its line fits or is a single character. -/
theorem counted_of_measured_chars (hover : column.Overfull room) (hroom : room + 65535 ≤ 2 ^ 32)
    {cs text : List Char} (hline : thousandths column.charWidth line < max room (2 ^ 16))
    (h : text ∈ column.measuredChars line cs) : column.Counts text := by
  induction cs generalizing line with
  | nil => simp at h
  | cons c cs ih =>
    have hstep := thousandths_snoc_lt column.charWidth line c
    have hcounted : column.Counts (line ++ [c]) := column.counts_iff.2 (by omega)
    rcases measured_chars_cons h with rfl | ⟨hholds, hlonger⟩ | hnext
    · exact hcounted
    · exact ih (lt_max_of_lt_left (hover.lt_of_holds hcounted hholds)) hlonger
    · exact ih (lt_max_of_lt_right (thousandths_singleton_lt _ c)) hnext

/-- What the walk carries: its line is empty or fits. -/
theorem counted_of_measured_words (hover : column.Overfull room) {words : List (List Char)}
    (hroom : ∀ word ∈ words, room + 65535 + thousandths column.charWidth word ≤ 2 ^ 32)
    (hline : line = [] ∨ thousandths column.charWidth line < room) {text : Line}
    (h : text ∈ column.measuredWords line words) : column.Counts text := by
  induction words generalizing line with
  | nil => simp at h
  | cons word words ih =>
    obtain ⟨hword, hwords⟩ := List.forall_mem_cons.1 hroom
    have hwordcounted : column.Counts word := column.counts_iff.2 (by omega)
    have hjoined : column.Counts (append line word) := by
      rcases hline with rfl | hline
      · exact hwordcounted
      · have hjoin := thousandths_append_lt column.charWidth line word
        exact column.counts_iff.2 (by omega)
    rcases measured_words_cons h with
      rfl | ⟨hholds, hlonger⟩ | rfl | ⟨hholds, hnext⟩ | hbroken | hnext
    · exact hjoined
    · exact ih hwords (.inr (hover.lt_of_holds hjoined hholds)) hlonger
    · exact hwordcounted
    · exact ih hwords (.inr (hover.lt_of_holds hwordcounted hholds)) hnext
    · exact hwordcounted.of_part (infix_of_measured_chars hbroken)
    · exact ih hwords (.inl rfl) hnext

/-! ## Counts that run over -/

/-- Every word is measured as a whole, whatever its length. -/
theorem exists_measured_of_mem (column : Column) (line : Line) {words : List (List Char)}
    {word : List Char} (h : word ∈ words) :
    ∃ text ∈ column.measuredWords line words, word <:+: text := by
  induction words generalizing line with
  | nil => cases h
  | cons first words ih =>
    rw [measuredWords_cons]
    rcases List.mem_cons.1 h with rfl | hlater
    · refine ⟨append line word, by simp, ?_⟩
      unfold append
      split
      · exact List.infix_rfl
      · exact (List.suffix_append_of_suffix (List.suffix_cons ' ' word)).isInfix
    · split
      · obtain ⟨text, htext, hpart⟩ := ih (append line first) hlater
        exact ⟨text, List.mem_cons_of_mem _ htext, hpart⟩
      · split
        · obtain ⟨text, htext, hpart⟩ := ih first hlater
          exact ⟨text, by simp [htext], hpart⟩
        · obtain ⟨text, htext, hpart⟩ := ih [] hlater
          exact ⟨text, by simp [htext], hpart⟩

/-- Every text fits whose thousandths can be counted. -/
def Wide (column : Column) : Prop :=
  ∀ text : Line, text ≠ [] → column.Counts text → column.holds text

theorem wide_of_le (hsize : 0 ≤ column.fontSize) (hfinite : column.fontSize.isFinite)
    (h : Binary32.ofInt (2 ^ 32 - 1 : ℕ) / 1000 * column.fontSize ≤ column.maxWidth) :
    column.Wide := by
  intro text hne hcount
  have hle : thousandths column.charWidth text ≤ 2 ^ 32 - 1 := Nat.le_pred_of_lt hcount
  refine decide_eq_true ?_
  rw [trueWidth_of_ne_nil hne]
  exact Binary32.le_trans (Binary32.thousandths_mul_le hsize hfinite hle (by decide)) h

theorem exists_over_chars (hwide : column.Wide) {cs : List Char} (hline : column.Counts line)
    (h : ¬ column.Counts (line ++ cs)) :
    ∃ text ∈ column.measuredChars line cs, ¬ column.Counts text := by
  induction cs generalizing line with
  | nil =>
    rw [List.append_nil] at h
    exact absurd hline h
  | cons c cs ih =>
    rw [measuredChars_cons]
    by_cases hcounted : column.Counts (line ++ [c])
    · rw [if_pos (hwide (line ++ [c]) (by simp) hcounted)]
      obtain ⟨text, htext, hcount⟩ := ih hcounted (by simpa using h)
      exact ⟨text, List.mem_cons_of_mem _ htext, hcount⟩
    · exact ⟨line ++ [c], by simp, hcounted⟩

theorem append_ne_nil {word : Line} (h : word ≠ []) : append line word ≠ [] := by
  unfold append
  split
  · exact h
  · simp

theorem exists_over_words (hwide : column.Wide) {words : List (List Char)}
    (hwords : ∀ word ∈ words, word ≠ []) (hline : column.Counts line)
    (h : ¬ column.Counts (words.foldl append line)) :
    ∃ text ∈ column.measuredWords line words, ¬ column.Counts text := by
  induction words generalizing line with
  | nil => exact absurd hline h
  | cons word words ih =>
    obtain ⟨hword, hlater⟩ := List.forall_mem_cons.1 hwords
    rw [measuredWords_cons]
    by_cases hcounted : column.Counts (append line word)
    · rw [if_pos (hwide (append line word) (append_ne_nil hword) hcounted)]
      obtain ⟨text, htext, hcount⟩ := ih hlater hcounted h
      exact ⟨text, List.mem_cons_of_mem _ htext, hcount⟩
    · exact ⟨append line word, by simp, hcounted⟩

theorem foldl_append {current words : List (List Char)}
    (h : ∀ word ∈ current ++ words, IsWord word) :
    words.foldl append (joinWords current) = joinWords (current ++ words) := by
  induction words generalizing current with
  | nil => simp
  | cons word words ih =>
    have htaken : current ++ word :: words = current ++ [word] ++ words := by simp
    rw [List.foldl_cons, append_joinWords fun w hw => h w (List.mem_append_left _ hw)]
    rw [htaken] at h ⊢
    exact ih h

/-! ## Paragraphs -/

variable {paragraph : List Char}

theorem counts_of_measured (hover : column.Overfull room) (hroom : room + 65535 ≤ 2 ^ 32)
    (hwords : isUnspaced paragraph ∨ ∀ word ∈ words paragraph,
      room + 65535 + thousandths column.charWidth word ≤ 2 ^ 32)
    {text : Line} (h : text ∈ column.measured paragraph) : column.Counts text := by
  rw [measured_eq] at h
  split at h
  · have hnil : thousandths column.charWidth [] < 2 ^ 16 := Nat.two_pow_pos 16
    exact counted_of_measured_chars hover hroom (lt_max_of_lt_right hnil) h
  · rename_i hspaced
    exact counted_of_measured_words hover (hwords.resolve_left hspaced) (.inl rfl) h

/-- In a wide column lines grow until their count runs over. -/
theorem exists_over (hwide : column.Wide) (h : ¬ column.Counts (joined paragraph)) :
    ∃ text ∈ column.measured paragraph, ¬ column.Counts text := by
  have hnil : column.Counts [] := Nat.two_pow_pos 32
  unfold joined at h
  rw [measured_eq]
  split
  · rename_i hunspaced
    rw [if_pos hunspaced] at h
    exact exists_over_chars hwide hnil h
  · rename_i hspaced
    have hwords : ∀ word ∈ [] ++ words paragraph, IsWord word := fun _ => isWord_of_mem_words
    have hjoin := foldl_append hwords
    rw [if_neg hspaced, ← List.nil_append (words paragraph), ← hjoin] at h
    exact exists_over_words hwide (fun word hw => (hwords word hw).ne_nil) hnil h

theorem exists_over_of_word (hspaced : ¬ isUnspaced paragraph) {word : List Char}
    (hword : word ∈ words paragraph) (h : ¬ column.Counts word) :
    ∃ text ∈ column.measured paragraph, ¬ column.Counts text := by
  rw [measured_eq, if_neg hspaced]
  obtain ⟨text, htext, hpart⟩ := column.exists_measured_of_mem [] hword
  exact ⟨text, htext, fun hcounts => h (hcounts.of_part hpart)⟩

theorem wrapParagraph_of_over (h : ∃ text ∈ column.measured paragraph, ¬ column.Counts text) :
    column.wrapParagraph paragraph = .error .overflow := by
  obtain ⟨text, htext, hcounts⟩ := h
  rw [wrapParagraph_eq, if_neg fun hall => hcounts (hall text htext)]

end

/-- The sums that are formed while a paragraph is broken. One comes out as it is if it is below
2 ^ 32, and ends the program otherwise; a text is not narrower than its beginnings. What is measured
is part of the paragraph, whose own sum bounds it. Whatever that is, no sum runs over if a line of
some `room` does not fit and, in text that is broken between words, each word leaves that room. One
does run over, so that the paragraph is not broken at all, in a longer paragraph if the column has
room for all that can be counted, and in a word that can not be counted, as words are measured
whole. -/
theorem measured_counts (column : Column) (paragraph : List Char) :
    (column.wrapParagraph paragraph =
      if ∀ text ∈ column.measured paragraph, thousandths column.charWidth text < 2 ^ 32 then
        .ok (paragraphLines column.holds paragraph)
      else .error .overflow) ∧
    (∀ text, textUnits column.charWidth text =
      if thousandths column.charWidth text < 2 ^ 32 then
        .ok (UInt32.ofNat (thousandths column.charWidth text))
      else .error .overflow) ∧
    (∀ text, thousandths column.charWidth text < 2 ^ 32 → 0 ≤ column.fontSize →
      column.fontSize.isFinite → ∀ part, part ≠ [] → part <+: text →
        ∃ narrow wide, column.width part = .ok narrow ∧ column.width text = .ok wide ∧
          narrow ≤ wide) ∧
    (∀ text ∈ column.measured paragraph, text <:+: joined paragraph ∧
      thousandths column.charWidth text ≤ thousandths column.charWidth (joined paragraph)) ∧
    (∀ room : ℕ, 0 < room → room + 65535 ≤ 2 ^ 32 → 0 ≤ column.fontSize →
      column.fontSize.isFinite →
      ¬ Binary32.ofInt room / 1000 * column.fontSize ≤ column.maxWidth →
      (isUnspaced paragraph ∨ ∀ word ∈ words paragraph,
        room + 65535 + thousandths column.charWidth word ≤ 2 ^ 32) →
      ∀ text ∈ column.measured paragraph, thousandths column.charWidth text < 2 ^ 32) ∧
    (0 ≤ column.fontSize → column.fontSize.isFinite →
      Binary32.ofInt (2 ^ 32 - 1 : ℕ) / 1000 * column.fontSize ≤ column.maxWidth →
      2 ^ 32 ≤ thousandths column.charWidth (joined paragraph) →
      column.wrapParagraph paragraph = .error .overflow) ∧
    (¬ isUnspaced paragraph → ∀ word ∈ words paragraph,
      2 ^ 32 ≤ thousandths column.charWidth word →
      column.wrapParagraph paragraph = .error .overflow) := by
  refine ⟨column.wrapParagraph_eq paragraph, textUnits_eq column.charWidth, ?_,
    fun text htext => ?_, ?_, ?_, ?_⟩
  · intro text hcount hsize hfinite part hne hpart
    have htext : column.Counts text := hcount
    have hcounts : column.Counts part := htext.of_part hpart.isInfix
    exact ⟨_, _, (column.width_eq part).trans (if_pos hcounts),
      (column.width_eq text).trans (if_pos hcount),
      trueWidth_le_of_part hsize hfinite hcount hne hpart.isInfix⟩
  · have hpart := infix_of_measured htext
    exact ⟨hpart, thousandths_le_of_part _ hpart⟩
  · intro room hpos hroom hsize hfinite hover hwords text htext
    exact counts_of_measured (overfull_of_not_le hpos hsize hfinite hover) hroom hwords htext
  · intro hsize hfinite hroom hover
    exact wrapParagraph_of_over
      (exists_over (wide_of_le hsize hfinite hroom) (column.not_counts_iff.2 hover))
  · intro hspaced word hword hover
    exact wrapParagraph_of_over
      (exists_over_of_word hspaced hword (column.not_counts_iff.2 hover))

/-! ## A word that can not be counted -/

theorem isUnspaced_replicate (n : ℕ) (c : Char) :
    isUnspaced (List.replicate (n + 1) c) = Text.inRanges unspacedRanges c.toNat := by
  rw [isUnspaced, List.any_replicate, if_neg (Nat.succ_ne_zero n)]

theorem not_isUnspaced_replicate (n : ℕ) : ¬ isUnspaced (List.replicate (n + 1) 'a') := by
  rw [isUnspaced_replicate]
  decide

/-- Characters of 65535 thousandths: no count runs over where one of them fits and the words are
short. That of 65538 of them does where everything fits that can be counted, and everywhere if they
are a word. -/
theorem measured_counts_narrow :
    let narrow : Column := { charWidth := fun _ => 65535, fontSize := 6, maxWidth := 400 }
    let wide : Column := { charWidth := fun _ => 65535, fontSize := 6, maxWidth := 30000000 }
    let short := ['a', 'b', ' ', 'c']
    let word := List.replicate 65538 'a'
    let unspaced := List.replicate 65538 '漢'
    ((0 ≤ narrow.fontSize ∧ narrow.fontSize.isFinite ∧
        ¬ Binary32.ofInt (100000 : ℕ) / 1000 * narrow.fontSize ≤ narrow.maxWidth ∧
        ∀ word ∈ words short, 100000 + 65535 + thousandths narrow.charWidth word ≤ 2 ^ 32) ∧
      narrow.measured short = [['a', 'b'], ['a', 'b'], ['a'], ['a', 'b'], ['c']] ∧
      (∀ text ∈ narrow.measured short, thousandths narrow.charWidth text < 2 ^ 32) ∧
      narrow.wrapParagraph short = .ok [['a'], ['b'], ['c']] ∧
      ∃ one two, narrow.width ['a'] = .ok one ∧ narrow.width ['a', 'b'] = .ok two ∧ one ≤ two) ∧
    ((0 ≤ wide.fontSize ∧ wide.fontSize.isFinite ∧
        Binary32.ofInt (2 ^ 32 - 1 : ℕ) / 1000 * wide.fontSize ≤ wide.maxWidth ∧
        2 ^ 32 ≤ thousandths wide.charWidth (joined unspaced)) ∧
      wide.wrapParagraph unspaced = .error .overflow) ∧
    (¬ isUnspaced word ∧ word ∈ words word ∧ 2 ^ 32 ≤ thousandths narrow.charWidth word) ∧
      narrow.wrapParagraph word = .error .overflow := by
  intro narrow wide short word unspaced
  obtain ⟨hwrap, -, hsums, -, hnarrow, -, -⟩ := narrow.measured_counts short
  obtain ⟨-, -, -, -, -, hwide, -⟩ := wide.measured_counts unspaced
  obtain ⟨-, -, -, -, -, -, hlong⟩ := narrow.measured_counts word
  have hsize : 0 ≤ narrow.fontSize := by decide
  have hfinite : narrow.fontSize.isFinite := by decide
  have hroom : ¬ Binary32.ofInt (100000 : ℕ) / 1000 * narrow.fontSize ≤ narrow.maxWidth := by decide
  have hwords : ∀ word ∈ words short,
      100000 + 65535 + thousandths narrow.charWidth word ≤ 2 ^ 32 := by decide
  have hmeasured : narrow.measured short = [['a', 'b'], ['a', 'b'], ['a'], ['a', 'b'], ['c']] := by
    decide
  have hcounts := hnarrow 100000 (by decide) (by decide) hsize hfinite hroom (.inr hwords)
  have hlines : narrow.wrapParagraph short = .ok [['a'], ['b'], ['c']] := by
    rw [hwrap, if_pos hcounts]
    decide
  have hcount : thousandths narrow.charWidth ['a', 'b'] < 2 ^ 32 := by decide
  have hprefix : ['a'] <+: ['a', 'b'] := List.prefix_append ['a'] ['b']
  have hbeginning := hsums ['a', 'b'] hcount hsize hfinite ['a'] (by decide) hprefix
  have hroom' : Binary32.ofInt (2 ^ 32 - 1 : ℕ) / 1000 * wide.fontSize ≤ wide.maxWidth := by decide
  have hunspaced : isUnspaced unspaced := (isUnspaced_replicate 65537 '漢').trans (by decide)
  have hjoined : 2 ^ 32 ≤ thousandths wide.charWidth (joined unspaced) := by
    rw [joined, if_pos hunspaced, thousandths_replicate]
    decide
  have hspaced : ¬ isUnspaced word := not_isUnspaced_replicate 65537
  have hmem : word ∈ words word := by
    rw [words_of_isWord (isWord_replicate (by decide) 65537)]
    exact List.mem_singleton_self word
  have hover : 2 ^ 32 ≤ thousandths narrow.charWidth word := by
    rw [thousandths_replicate]
    decide
  exact ⟨⟨⟨hsize, hfinite, hroom, hwords⟩, hmeasured, hcounts, hlines, hbeginning⟩,
    ⟨⟨hsize, hfinite, hroom', hjoined⟩, hwide hsize hfinite hroom' hjoined⟩,
    ⟨hspaced, hmem, hover⟩, hlong hspaced word hmem hover⟩

/-- The sum for a word of 65538 of the widest characters runs over, so that the word is not broken,
though the column has room for its first 101 characters and not for the next one. -/
theorem measured_word_runs_over :
    let column : Column := { charWidth := fun _ => 65535, fontSize := 6, maxWidth := 40000 }
    let word := List.replicate 65538 'a'
    word ∈ column.measured word ∧
      2 ^ 32 ≤ thousandths column.charWidth word ∧
      textUnits column.charWidth word = .error .overflow ∧
      column.fits (word.take 101) = .ok true ∧ column.fits (word.take 102) = .ok false ∧
      column.wrapParagraph word = .error .overflow := by
  intro column word
  have hover : ¬ column.Counts word := by
    rw [not_counts_iff, thousandths_replicate]
    decide
  have hspaced : ¬ isUnspaced word := not_isUnspaced_replicate 65537
  have hwords : words word = [word] := words_of_isWord (isWord_replicate (by decide) 65537)
  have hmem : word ∈ words word := by
    rw [hwords]
    exact List.mem_singleton_self word
  have hmeasured : word ∈ column.measured word := by
    rw [measured_eq, if_neg hspaced, hwords, measuredWords_cons]
    exact List.mem_cons_self
  have htake (n : ℕ) (hn : n ≤ 65538) : word.take n = List.replicate n 'a' := by
    rw [List.take_replicate, Nat.min_eq_left hn]
  refine ⟨hmeasured, column.not_counts_iff.1 hover, (textUnits_eq _ word).trans (if_neg hover),
    ?_, ?_, wrapParagraph_of_over (exists_over_of_word hspaced hmem hover)⟩
  · rw [htake 101 (by decide)]
    decide
  · rw [htake 102 (by decide)]
    decide

end Column

end Folio
