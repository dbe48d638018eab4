import Folio.Proofs.ClosingFence
import Folio.Proofs.Faithful
import Folio.Proofs.Json.Unfinished

/-!
# Fences quoted in texts

An object of texts may be sent in a fence that is opened and not closed. Backticks that the texts
quote are then all that the search for a closing fence can find, and some of them it takes for one:
`QuotesClosing text` says which. The reply comes to the texts, as it does without the fence, if no
text quotes a fence in this way; else it is cut off inside a text and refused
(`unclosed_fence_outcome`).
-/

set_option autoImplicit false

namespace Folio.Reply

open Json Text

/-! ## Marks -/

/-- The blanks that may stand in a string of JSON as they are. -/
def isRawBlank (c : Char) : Bool := isBlank c && decide (0x20 ≤ c.toNat)

/-- The text ends with a brace or a bracket that closes, and blanks behind it or not. -/
def EndsMarked (text : List Char) : Prop :=
  ∃ before mark blanks, text = before ++ mark :: blanks ∧ (mark = '\x7d' ∨ mark = ']') ∧
    ∀ c ∈ blanks, isRawBlank c = true

theorem endsMarked_iff {text : List Char} : EndsMarked text ↔
    (text.reverse.dropWhile isRawBlank).head?.any (fun c => c == '\x7d' || c == ']') = true := by
  rw [Option.any_eq_true]
  constructor
  · rintro ⟨before, mark, blanks, rfl, hmark, hblanks⟩
    have hraw : isRawBlank mark = false := by
      rcases hmark with rfl | rfl <;> decide
    refine ⟨mark, ?_, by simpa using hmark⟩
    rw [List.reverse_append, List.reverse_cons, List.append_assoc,
      List.dropWhile_append_of_pos fun c hc => hblanks c (List.mem_reverse.1 hc)]
    simp [hraw]
  · rintro ⟨mark, hhead, hmark⟩
    obtain ⟨before, hdrop⟩ := List.head?_eq_some_iff.1 hhead
    refine ⟨before.reverse, mark, (text.reverse.takeWhile isRawBlank).reverse, ?_,
      by simpa using hmark, fun c hc => List.mem_takeWhile_imp (List.mem_reverse.1 hc)⟩
    have hsplit := List.takeWhile_append_dropWhile (p := isRawBlank) (l := text.reverse)
    rw [hdrop] at hsplit
    have := congrArg List.reverse hsplit
    simpa using this.symm

instance (text : List Char) : Decidable (EndsMarked text) :=
  decidable_of_iff _ endsMarked_iff.symm

theorem endsMarked_concat (text : List Char) (c : Char) :
    EndsMarked (text ++ [c]) ↔
      if isRawBlank c = true then EndsMarked text else c = '\x7d' ∨ c = ']' := by
  rw [endsMarked_iff, endsMarked_iff, List.reverse_append, List.reverse_singleton,
    List.singleton_append]
  split
  · rename_i hc
    rw [List.dropWhile_cons_of_pos hc]
  · rename_i hc
    rw [List.dropWhile_cons_of_neg hc]
    simp

/-- Somewhere in the text a run of backticks that is made of whole fences stands behind a brace or a
bracket that closes. -/
def QuotesClosing (text : List Char) : Prop :=
  ∃ before after, text = before ++ after ∧ EndsMarked before ∧ 0 < ticks after ∧ 3 ∣ ticks after

instance (text : List Char) : Decidable (QuotesClosing text) :=
  decidable_of_iff (∃ n ≤ text.length, EndsMarked (text.take n) ∧ 0 < ticks (text.drop n) ∧
      3 ∣ ticks (text.drop n)) <| by
    constructor
    · rintro ⟨n, -, h⟩
      exact ⟨_, _, (List.take_append_drop n text).symm, h⟩
    · rintro ⟨before, after, rfl, h⟩
      exact ⟨before.length, by simp, by simpa using h⟩

/-! ## Marks in an escaped text -/

/-- A character that is not written as itself: neither it nor its escape is what a search for fences
looks at. -/
structure Escaped (c : Char) : Prop where
  raw : isRawBlank c = false
  mark : ¬ (c = '\x7d' ∨ c = ']')
  tick : '`' ∉ escapeChar c
  newline : '\n' ∉ escapeChar c
  last : ∃ init e, escapeChar c = init ++ [e] ∧ isBlank e = false ∧ ¬ (e = '\x7d' ∨ e = ']')

theorem escaped_of_last {c : Char} (raw : isRawBlank c = false) (mark : ¬ (c = '\x7d' ∨ c = ']'))
    (tick : '`' ∉ escapeChar c) (newline : '\n' ∉ escapeChar c)
    (last : (escapeChar c).getLast?.any (fun e => !isBlank e && e != '\x7d' && e != ']') = true) :
    Escaped c := by
  obtain ⟨e, he, hlast⟩ := (Option.any_eq_true _ _).1 last
  obtain ⟨init, hinit⟩ := List.getLast?_eq_some_iff.1 he
  simp only [Bool.and_eq_true, Bool.not_eq_true', bne_iff_ne] at hlast
  exact ⟨raw, mark, tick, newline, init, e, hinit, hlast.1.1, not_or.2 ⟨hlast.1.2, hlast.2⟩⟩

theorem escaped_control : ∀ n < 0x20, Escaped (Char.ofNat n) := by
  have hall : ∀ n < 0x20, isRawBlank (Char.ofNat n) = false ∧
      ¬ (Char.ofNat n = '\x7d' ∨ Char.ofNat n = ']') ∧ '`' ∉ escapeChar (Char.ofNat n) ∧
      '\n' ∉ escapeChar (Char.ofNat n) ∧
      (escapeChar (Char.ofNat n)).getLast?.any
        (fun e => !isBlank e && e != '\x7d' && e != ']') = true := by
    decide
  intro n hn
  obtain ⟨raw, mark, tick, newline, last⟩ := hall n hn
  exact escaped_of_last raw mark tick newline last

theorem escapeChar_cases (c : Char) : (escapeChar c = [c] ∧ 0x20 ≤ c.toNat) ∨ Escaped c := by
  by_cases hquote : c = '"'
  · subst hquote
    exact .inr (escaped_of_last (by decide) (by decide) (by decide) (by decide) (by decide))
  by_cases hslash : c = '\\'
  · subst hslash
    exact .inr (escaped_of_last (by decide) (by decide) (by decide) (by decide) (by decide))
  by_cases hcontrol : c.toNat < 0x20
  · right
    rw [← Char.ofNat_toNat c]
    exact escaped_control _ hcontrol
  · left
    have hne {d : Char} (hd : d.toNat < 0x20) : c ≠ d := by
      rintro rfl
      exact hcontrol hd
    refine ⟨?_, by omega⟩
    simp [escapeChar, hquote, hslash, hcontrol, hne (d := '\x08') (by decide),
      hne (d := '\x0c') (by decide), hne (d := '\n') (by decide), hne (d := '\r') (by decide),
      hne (d := '\t') (by decide)]

theorem newline_not_mem_escapeChar (c : Char) : '\n' ∉ escapeChar c := by
  rcases escapeChar_cases c with ⟨hplain, hle⟩ | hescaped
  · rw [hplain, List.mem_singleton]
    rintro rfl
    exact absurd hle (by decide)
  · exact hescaped.newline

theorem tick_not_mem_escapeChar {c : Char} (hc : c ≠ '`') : '`' ∉ escapeChar c := by
  rcases escapeChar_cases c with ⟨hplain, -⟩ | hescaped
  · rw [hplain, List.mem_singleton]
    exact Ne.symm hc
  · exact hescaped.tick

theorem head?_text_ne_newline (opening cs : List Char) :
    (opening ++ '"' :: cs.flatMap escapeChar).reverse.head? ≠ some '\n' := by
  intro h
  rw [List.head?_reverse, List.getLast?_append_cons] at h
  rcases List.mem_cons.1 (List.mem_of_getLast? h) with hquote | hmem
  · cases hquote
  · obtain ⟨c, -, hc⟩ := List.mem_flatMap.1 hmem
    exact newline_not_mem_escapeChar c hc

/-- Inside a text, a fence closes what is before it just when the text ends marked there. -/
theorem closes_text (opening cs : List Char) :
    closes (opening ++ '"' :: cs.flatMap escapeChar).reverse = true ↔ EndsMarked cs := by
  induction cs using List.reverseRecOn with
  | nil =>
    rw [List.flatMap_nil, List.reverse_append, List.reverse_singleton, List.singleton_append,
      closes_cons (by decide)]
    decide
  | append_singleton cs c ih =>
    rw [List.flatMap_append, List.flatMap_singleton, ← List.cons_append, ← List.append_assoc,
      List.reverse_append, endsMarked_concat]
    rcases escapeChar_cases c with ⟨hplain, hle⟩ | hescaped
    · rw [hplain, List.reverse_singleton, List.singleton_append]
      cases hblank : isBlank c with
      | true =>
        have hn : c ≠ '\n' := by
          rintro rfl
          exact absurd hle (by decide)
        rw [closes_blank hblank hn (head?_text_ne_newline opening cs), ih,
          if_pos (by simp [isRawBlank, hblank, hle])]
      | false => rw [closes_cons hblank, if_neg (by simp [isRawBlank, hblank])]
    · obtain ⟨init, e, hlast, he, hmark⟩ := hescaped.last
      rw [hlast, List.reverse_append, List.reverse_singleton, List.singleton_append,
        List.cons_append, closes_cons he, if_neg (by simp [hescaped.raw])]
      exact iff_of_false hmark hescaped.mark

/-! ## Backticks in an object of texts -/

theorem ticks_text (cs behind : List Char) :
    ticks (cs.flatMap escapeChar ++ '"' :: behind) = ticks cs := by
  induction cs with
  | nil => exact ticks_of_ne (by decide) behind
  | cons c cs ih =>
    by_cases hc : c = '`'
    · subst hc
      rw [List.flatMap_cons, ticks_cons, ← ih]
      exact ticks_cons _
    · have hmem := tick_not_mem_escapeChar hc
      rw [List.flatMap_cons, ticks_of_ne hc]
      rcases escapeChar_cases c with ⟨hplain, -⟩ | hescaped
      · rw [hplain]
        exact ticks_of_ne hc _
      · obtain ⟨x, xs, hxs⟩ : ∃ x xs, escapeChar c = x :: xs := by
          obtain ⟨init, e, hlast, -⟩ := hescaped.last
          exact List.exists_cons_of_ne_nil (by simp [hlast])
        rw [hxs] at hmem ⊢
        exact ticks_of_ne (fun he => hmem (he ▸ List.mem_cons_self)) _

/-- A backtick is not found where there is none. -/
theorem tick_behind {front text before rest : List Char} (hf : '`' ∉ front)
    (h : front ++ text = before ++ '`' :: rest) :
    ∃ b, before = front ++ b ∧ text = b ++ '`' :: rest := by
  rcases List.append_eq_append_iff.1 h with ⟨b, hbefore, htext⟩ | ⟨b, hfront, hrest⟩
  · exact ⟨b, hbefore, htext⟩
  · cases b with
    | nil => exact ⟨[], by simpa using hfront.symm, by simpa using hrest.symm⟩
    | cons x b =>
      obtain ⟨rfl, -⟩ := List.cons.inj hrest
      exact absurd (by simp [hfront]) hf

/-- A backtick in an escaped text is one of the text. -/
theorem tick_in_text {cs behind before rest : List Char}
    (h : cs.flatMap escapeChar ++ '"' :: behind = before ++ '`' :: rest) :
    (∃ pre post, cs = pre ++ '`' :: post ∧ before = pre.flatMap escapeChar ∧
        rest = post.flatMap escapeChar ++ '"' :: behind) ∨
      ∃ b, before = cs.flatMap escapeChar ++ '"' :: b ∧ behind = b ++ '`' :: rest := by
  induction cs generalizing before with
  | nil =>
    have hquote : '`' ∉ ['"'] := by decide
    exact .inr (tick_behind hquote h)
  | cons c cs ih =>
    by_cases hc : c = '`'
    · subst hc
      cases before with
      | nil => exact .inl ⟨[], cs, rfl, rfl, (List.cons.inj h).2.symm⟩
      | cons x before =>
        obtain ⟨rfl, htail⟩ := List.cons.inj h
        rcases ih htail with ⟨pre, post, rfl, rfl, hrest⟩ | ⟨b, rfl, hbehind⟩
        · exact .inl ⟨'`' :: pre, post, rfl, rfl, hrest⟩
        · exact .inr ⟨b, rfl, hbehind⟩
    · rw [List.flatMap_cons, List.append_assoc] at h
      obtain ⟨b, rfl, htail⟩ := tick_behind (tick_not_mem_escapeChar hc) h
      rcases ih htail with ⟨pre, post, rfl, rfl, hrest⟩ | ⟨b, rfl, hbehind⟩
      · exact .inl ⟨c :: pre, post, rfl, rfl, hrest⟩
      · exact .inr ⟨b, by simp, hbehind⟩

/-- Texts under keys without backticks. -/
def Texts (ms : List (String × Value)) : Prop :=
  ∀ m ∈ ms, '`' ∉ m.1.toList ∧ ∃ text, m.2 = .string text

/-- An object up to the text under a key. -/
def upTo (ms : List (String × Value)) (key : String) : List Char :=
  '\x7b' :: preceding ms ++ stringText key ++ [':']

theorem memberCompact_string (key text : String) :
    memberCompact (key, .string text) =
      stringText key ++ ':' :: '"' :: (text.toList.flatMap escapeChar ++ ['"']) := by
  simp [memberCompact, Value.compact, stringText]

theorem compact_split (before : List (String × Value)) (key text : String)
    (later : List (String × Value)) :
    ∃ rest, (Value.object (before ++ (key, .string text) :: later)).compact =
      upTo before key ++ '"' :: text.toList.flatMap escapeChar ++ '"' :: rest := by
  obtain ⟨rest, hrest⟩ := separated_members before (key, .string text) later
  refine ⟨rest ++ ['\x7d'], ?_⟩
  rw [compact_object, hrest, memberCompact_string]
  simp [upTo]

theorem tick_not_mem_stringText {key : String} (h : '`' ∉ key.toList) : '`' ∉ stringText key := by
  have hbody : '`' ∉ key.toList.flatMap escapeChar := fun hmem => by
    obtain ⟨c, hc, hmem⟩ := List.mem_flatMap.1 hmem
    have hne : c ≠ '`' := fun he => h (he ▸ hc)
    exact tick_not_mem_escapeChar hne hmem
  simp [stringText, hbody]

theorem tick_in_members {ms : List (String × Value)} (hms : Texts ms)
    {behind before rest : List Char} (hbehind : '`' ∉ behind)
    (h : separated (ms.map memberCompact) ++ behind = before ++ '`' :: rest) :
    ∃ ms₁ key text ms₂ pre post more, ms = ms₁ ++ (key, .string text) :: ms₂ ∧
      text.toList = pre ++ '`' :: post ∧
      before = preceding ms₁ ++ stringText key ++ ':' :: '"' :: pre.flatMap escapeChar ∧
      rest = post.flatMap escapeChar ++ '"' :: more := by
  induction ms generalizing before with
  | nil =>
    have hmem : '`' ∈ behind := by
      rw [show behind = before ++ '`' :: rest from h]
      simp
    exact absurd hmem hbehind
  | cons m ms ih =>
    obtain ⟨key, value⟩ := m
    obtain ⟨hkey, text, rfl⟩ := hms _ List.mem_cons_self
    -- What is behind the text: the end of the object, or the members that follow.
    obtain ⟨more, htext, hmore⟩ : ∃ more, separated (((key, .string text) :: ms).map memberCompact) ++
        behind = stringText key ++ ':' :: '"' :: (text.toList.flatMap escapeChar ++ '"' :: more) ∧
        (more = behind ∨ more = ',' :: (separated (ms.map memberCompact) ++ behind)) := by
      cases ms with
      | nil => exact ⟨behind, by simp [separated, memberCompact_string], .inl rfl⟩
      | cons m ms => exact ⟨_, by simp [separated_cons_cons, memberCompact_string], .inr rfl⟩
    have hfront : '`' ∉ stringText key ++ [':', '"'] := by
      simp [tick_not_mem_stringText hkey]
    have hsplit : (stringText key ++ [':', '"']) ++
        (text.toList.flatMap escapeChar ++ '"' :: more) = before ++ '`' :: rest := by
      rw [← h, htext]
      simp
    obtain ⟨before, rfl, hinside⟩ := tick_behind hfront hsplit
    rcases tick_in_text hinside with ⟨pre, post, hcs, rfl, hrest⟩ | ⟨b, rfl, hlater⟩
    · exact ⟨[], key, text, ms, pre, post, more, rfl, hcs, by simp [preceding], hrest⟩
    · rcases hmore with rfl | rfl
      · exact absurd (by simp [hlater]) hbehind
      · have hcomma : '`' ∉ [','] := by decide
        obtain ⟨b, rfl, htail⟩ := tick_behind hcomma hlater
        obtain ⟨ms₁, key', text', ms₂, pre, post, more, rfl, hcs, rfl, hrest⟩ :=
          ih (fun m hm => hms m (List.mem_cons_of_mem _ hm)) htail
        refine ⟨(key, .string text) :: ms₁, key', text', ms₂, pre, post, more, rfl, hcs, ?_, hrest⟩
        simp [preceding_cons, memberCompact_string]

/-- A fence that is taken for the closing one is quoted in a text, which is cut off there. -/
theorem cut_of_closedIn {ms : List (String × Value)} (hms : Texts ms) {before : List Char}
    (h : ClosedIn (Value.object ms).compact.reverse [] before) :
    ∃ ms₁ key text ms₂ pre, ms = ms₁ ++ (key, .string text) :: ms₂ ∧ QuotesClosing text.toList ∧
      EndsMarked pre ∧ before.reverse = upTo ms₁ key ++ '"' :: pre.flatMap escapeChar := by
  obtain ⟨passed, heq, haligned, hcloses⟩ := h
  rw [List.append_nil] at haligned
  have htext : ['\x7b'] ++ (separated (ms.map memberCompact) ++ ['\x7d']) =
      before.reverse ++ '`' :: '`' :: '`' :: passed.reverse := by
    have := congrArg List.reverse heq
    rw [List.reverse_reverse, compact_object] at this
    simpa [fence] using this
  have hopen : '`' ∉ ['\x7b'] := by decide
  have hclose : '`' ∉ ['\x7d'] := by decide
  obtain ⟨inside, hbefore, hmembers⟩ := tick_behind hopen htext
  obtain ⟨ms₁, key, text, ms₂, pre, post, more, rfl, hcs, rfl, hrest⟩ :=
    tick_in_members hms hclose hmembers
  have hupTo : before.reverse = upTo ms₁ key ++ '"' :: pre.flatMap escapeChar := by
    rw [hbefore]
    simp [upTo]
  have hmarked : EndsMarked pre := by
    rw [← closes_text (upTo ms₁ key), ← hupTo, List.reverse_reverse]
    exact hcloses
  have hticks : ticks passed.reverse + 2 = ticks post := by
    rw [← ticks_text post more, ← hrest, ticks_cons, ticks_cons]
  refine ⟨ms₁, key, text, ms₂, pre, rfl, ⟨pre, '`' :: post, hcs, hmarked, ?_, ?_⟩, hmarked, hupTo⟩
  · simp
  · rw [ticks_cons]
    omega

/-- A fence that is quoted behind a mark is taken for the closing one. -/
theorem closedIn_of_quotes {text : String} (h : QuotesClosing text.toList)
    (ms₁ : List (String × Value)) (key : String) (ms₂ : List (String × Value)) :
    ∃ before,
      ClosedIn (Value.object (ms₁ ++ (key, .string text) :: ms₂)).compact.reverse [] before := by
  obtain ⟨pre, after, hsplit, hmarked, hpos, hwhole⟩ := h
  have hthree : 3 ≤ ticks after := by omega
  obtain ⟨post, rfl⟩ := exists_fence hthree
  obtain ⟨rest, hcompact⟩ := compact_split ms₁ key text ms₂
  rw [ticks_fence] at hwhole
  refine ⟨(upTo ms₁ key ++ '"' :: pre.flatMap escapeChar).reverse,
    (post.flatMap escapeChar ++ '"' :: rest).reverse, ?_, ?_, (closes_text _ pre).2 hmarked⟩
  · have hfence : fence.flatMap escapeChar = fence := by decide
    rw [hcompact, hsplit, List.flatMap_append, List.flatMap_append, hfence]
    simp [fence]
  · rw [List.reverse_reverse, List.append_nil, ticks_text]
    omega

/-! ## The reply -/

theorem escapeChar_of_isRawBlank {c : Char} (h : isRawBlank c = true) : escapeChar c = [c] := by
  rcases escapeChar_cases c with ⟨hplain, -⟩ | hescaped
  · exact hplain
  · rw [hescaped.raw] at h
    cases h

/-- What is left of an object that is cut off ends inside a text, also without its blanks. -/
theorem trim_cut {cs : List Char} (h : EndsMarked cs) (ms : List (String × Value)) (key : String) :
    ∃ kept : List Char, trim (upTo ms key ++ '"' :: cs.flatMap escapeChar) =
      upTo ms key ++ '"' :: kept.flatMap escapeChar := by
  obtain ⟨before, mark, blanks, rfl, hmark, hblanks⟩ := h
  have hself : blanks.flatMap escapeChar = blanks := by
    rw [List.flatMap_congr fun c hc => escapeChar_of_isRawBlank (hblanks c hc)]
    simp
  have hmarkSelf : escapeChar mark = [mark] := by
    rcases hmark with rfl | rfl <;> decide
  have hmarkBlank : isBlank mark = false := by
    rcases hmark with rfl | rfl <;> decide
  have htight : Tight (upTo ms key ++ '"' :: (before ++ [mark]).flatMap escapeChar) := by
    refine ⟨⟨'\x7b', _, rfl, by decide⟩, upTo ms key ++ '"' :: before.flatMap escapeChar, mark, ?_,
      hmarkBlank⟩
    simp [hmarkSelf]
  have hafter : Blanks blanks := fun c hc => (Bool.and_eq_true_iff.1 (hblanks c hc)).1
  have hnone : Blanks [] := by decide
  refine ⟨before ++ [mark], ?_⟩
  rw [← trim_blanks hnone hafter htight]
  simp [hself, hmarkSelf]

theorem clean_unclosed {info text : List Char} (hinfo : '\n' ∉ info) (h : Braced text) :
    clean (fence ++ info ++ '\n' :: text) =
      ((beforeFence 0 text.reverse).map fun before => trim before.reverse).getD text := by
  have htight : Tight (fence ++ info ++ '\n' :: text) := by
    obtain ⟨rest, c, hlast, hc⟩ := h.tight.last
    exact ⟨⟨'`', _, rfl, by decide⟩, fence ++ info ++ '\n' :: rest, c, by simp [hlast], hc⟩
  have hfence : fence.isPrefixOf (fence ++ info ++ '\n' :: text) = true := by simp [fence]
  have hne : (fence ++ info ++ '\n' :: text).isEmpty = false := rfl
  simp only [clean, trim_tight htight, hne, hfence, afterOpening_fence hinfo, trim_tight h.tight,
    Bool.false_eq_true, ↓reduceIte]
  cases beforeFence 0 text.reverse <;> rfl

theorem Texts.plain {ms : List (String × Value)} (hms : Texts ms) : ∀ m ∈ ms, Plain 0 m.2 := by
  intro m hm
  obtain ⟨-, text, htext⟩ := hms m hm
  rw [htext]
  trivial

theorem Texts.parse {ms : List (String × Value)} (hms : Texts ms) :
    parse (String.ofList (Value.object ms).compact) = .ok (.ofEntries ms) :=
  parse_eq_object_iff.2 ⟨ms, writes_compact (Nat.zero_le _) hms.plain, rfl⟩

theorem braced_compact (ms : List (String × Value)) : Braced (Value.object ms).compact :=
  ⟨_, compact_object ms⟩

/-- In a fence that is not closed, an object of texts comes out as it is or is cut off inside a
text. -/
theorem cleaned_unclosed {ms : List (String × Value)} (hms : Texts ms) {info : List Char}
    (hinfo : '\n' ∉ info) :
    let content := String.ofList (fence ++ info ++ '\n' :: (Value.object ms).compact)
    ((∀ m ∈ ms, ∀ text, m.2 = .string text → ¬ QuotesClosing text.toList) ∧
        cleaned content = String.ofList (Value.object ms).compact) ∨
      (∃ m ∈ ms, ∃ text, m.2 = .string text ∧ QuotesClosing text.toList) ∧
        ∃ p, parse (cleaned content) = .error ⟨.eofInString, p⟩ := by
  intro content
  have hclean := clean_unclosed hinfo (braced_compact ms)
  have hnone : 3 ∣ ticks [] := by decide
  rcases beforeFence_cases (Value.object ms).compact.reverse [] fun _ => hnone with
    ⟨before, hsome, hclosed⟩ | ⟨hnothing, hopen⟩
  · right
    obtain ⟨ms₁, key, text, ms₂, pre, rfl, hquotes, hmarked, hbefore⟩ := cut_of_closedIn hms hclosed
    refine ⟨⟨(key, .string text), by simp, text, rfl, hquotes⟩, ?_⟩
    obtain ⟨kept, hkept⟩ := trim_cut hmarked ms₁ key
    have hplain : ∀ m ∈ ms₁, Plain 0 m.2 := fun m hm => hms.plain m (List.mem_append_left _ hm)
    obtain ⟨p, hp⟩ := parse_unfinished hplain key kept
    refine ⟨p, ?_⟩
    rw [cleaned, String.toList_ofList, hclean, hsome, Option.map_some, Option.getD_some, hbefore,
      hkept, ← hp]
    simp [upTo]
  · left
    constructor
    · intro m hm text htext hquotes
      obtain ⟨ms₁, ms₂, rfl⟩ := List.append_of_mem hm
      obtain ⟨key, value⟩ := m
      obtain rfl : value = .string text := htext
      obtain ⟨before, hclosed⟩ := closedIn_of_quotes hquotes ms₁ key ms₂
      exact hopen before hclosed
    · rw [cleaned, String.toList_ofList, hclean, hnothing, Option.map_none, Option.getD_none]

theorem texts_keyed (text : Page → String) (pages : List Page) : Texts (keyed text pages) := by
  intro m hm
  obtain ⟨page, -, rfl⟩ := List.mem_map.1 hm
  refine ⟨fun hmem => ?_, text page, rfl⟩
  rw [Nat.toList_repr] at hmem
  exact absurd (toDigits_isDigit hmem) (by decide)

/-- The texts of an object come out if it has one for every page of the chunk. -/
theorem translations_of_texts (f : PageNumber → String) {chunk : Chunk} {pages : List Page}
    (hpages : chunk.numbers ⊆ pages.map Page.number) {content : String}
    (hclean : cleaned content =
      String.ofList (Value.object (keyed (fun page => f page.number) pages)).compact) :
    translations content chunk =
      .ok (Sorted.ofList (chunk.map fun page => (page.number, f page.number))) := by
  have hobject : object content =
      .ok (Sorted.ofList (keyed (fun page => f page.number) pages)) := by
    refine object_of_parse ?_
    rw [hclean, (texts_keyed _ pages).parse]
    rfl
  have hlookup (page : Page) (hp : page ∈ chunk) :
      (answers (Sorted.ofList (keyed (fun page => f page.number) pages))).lookup page.number =
        some (.string (f page.number)) := by
    obtain ⟨answered, ha, hnumber⟩ := List.mem_map.1 (hpages (List.mem_map_of_mem hp))
    rw [← hnumber]
    exact lookup_answers _ ha fun other _ he => congrArg f he
  refine translations_eq_ok_iff.2 ⟨_, hobject, fun page hp => by rw [hlookup page hp]; rfl, ?_⟩
  refine congrArg Sorted.ofList (List.map_congr_left fun page hp => ?_)
  rw [textIn, hlookup page hp]
  rfl

/-- In a fence that is opened and not closed, an object of texts for the pages comes to these texts,
as it does bare, if no text quotes a fence that is taken for the closing one; else the reply is
refused because the object ends inside a text. -/
theorem unclosed_fence_outcome {info : List Char} (hinfo : '\n' ∉ info) (f : PageNumber → String)
    {chunk : Chunk} {pages : List Page} (hpages : chunk.numbers ⊆ pages.map Page.number) :
    let json := (Value.object (keyed (fun page => f page.number) pages)).compact
    let fenced := String.ofList (fence ++ info ++ '\n' :: json)
    let texts := Sorted.ofList (chunk.map fun page => (page.number, f page.number))
    translations (String.ofList json) chunk = .ok texts ∧
      ((∀ page ∈ pages, ¬ QuotesClosing (f page.number).toList) →
        translations fenced chunk = .ok texts) ∧
      ((∃ page ∈ pages, QuotesClosing (f page.number).toList) →
        ∃ e : ReadError, e.fault = .eofInString ∧ translations fenced chunk =
          .error (.protocol s!"Assistant content was not valid JSON: {e.message}")) := by
  intro json fenced texts
  have htexts : Texts (keyed (fun page => f page.number) pages) := texts_keyed _ pages
  have hquoting : (∃ m ∈ keyed (fun page => f page.number) pages, ∃ text, m.2 = .string text ∧
      QuotesClosing text.toList) ↔ ∃ page ∈ pages, QuotesClosing (f page.number).toList := by
    simp [keyed]
  have hbare : cleaned (String.ofList json) = String.ofList json := cleaned_bare (braced_compact _)
  refine ⟨translations_of_texts f hpages hbare, fun hnone => ?_, fun hsome => ?_⟩
  · rcases cleaned_unclosed htexts hinfo with ⟨-, hclean⟩ | ⟨hquotes, -⟩
    · exact translations_of_texts f hpages hclean
    · obtain ⟨page, hp, hquotes⟩ := hquoting.1 hquotes
      exact absurd hquotes (hnone page hp)
  · rcases cleaned_unclosed htexts hinfo with ⟨hnone, -⟩ | ⟨-, p, hparse⟩
    · obtain ⟨m, hm, text, htext, hquotes⟩ := hquoting.2 hsome
      exact absurd hquotes (hnone m hm text htext)
    · exact ⟨_, rfl, translations_of_unreadable hparse chunk⟩

/-- Backticks that do no harm: not behind a mark, too many behind one, or with a line between. -/
theorem unclosed_fence_outcome_harmless :
    let f (n : PageNumber) : String := if n = 1 then "a ```b" else "\x7d ````]\n```"
    let chunk : Chunk := [⟨2, "d"⟩, ⟨1, "c"⟩]
    let json := (Value.object (keyed (fun page => f page.number) chunk)).compact
    '\n' ∉ "json".toList ∧ (∀ page ∈ chunk, ¬ QuotesClosing (f page.number).toList) ∧
      translations (String.ofList (fence ++ "json".toList ++ '\n' :: json)) chunk =
        .ok [(1, "a ```b"), (2, "\x7d ````]\n```")] := by
  intro f chunk json
  have hinfo : '\n' ∉ "json".toList := by decide
  have hpages : chunk.numbers ⊆ chunk.map Page.number := List.Subset.refl _
  have hfirst : ¬ QuotesClosing (f 1).toList := by decide
  have hsecond : ¬ QuotesClosing (f 2).toList := by decide
  have hnone : ∀ page ∈ chunk, ¬ QuotesClosing (f page.number).toList :=
    List.forall_mem_cons.2 ⟨hsecond, List.forall_mem_singleton.2 hfirst⟩
  exact ⟨hinfo, hnone, (unclosed_fence_outcome hinfo f hpages).2.1 hnone⟩

/-- A text with a fence behind a brace: the object is cut off there. -/
theorem unclosed_fence_cut :
    let json := (Value.object (keyed (fun _ => "a\x7d```b") [⟨1, "c"⟩])).compact
    translations (String.ofList json) [⟨1, "c"⟩] = .ok [(1, "a\x7d```b")] ∧
      translations (String.ofList (fence ++ "json".toList ++ '\n' :: json)) [⟨1, "c"⟩] =
        .error (.protocol ("Assistant content was not valid JSON: EOF while parsing a string " ++
          "at line 1 column 8")) := by
  decide +kernel

end Folio.Reply
