import Folio.Proofs.Digits
import Folio.Proofs.Json.Text

/-!
# Reading every text of a value

`readValue_takes`: whatever text of a value stands at a cursor, `readValue` takes exactly that text
and yields the value, if what follows ends it. `parse_of_isText` is the statement about whole texts,
which may have blanks at both ends.

A reader's position plays no part in what is read, so `Takes` leaves it open. Bytes that are no text
are a matter of streams; here there are none.
-/

set_option autoImplicit false

namespace Folio.Json

/-- In front of `rest`, from any place, `reader` takes exactly `text` and yields `value`. -/
def Takes {α : Type} (reader : Reader α) (text : List Char) (value : α) (rest : List Char) : Prop :=
  ∀ p streaming, ∃ p',
    reader ⟨text ++ rest, p, streaming, []⟩ = .ok (value, ⟨rest, p', streaming, []⟩)

/-! ## Blanks -/

theorem skipSpaces_append {ws : List Char} (h : Spaces ws) (rest : List Char) (p : Position) :
    ∃ p', skipSpaces (ws ++ rest) p = skipSpaces rest p' := by
  induction ws generalizing p with
  | nil => exact ⟨p, rfl⟩
  | cons c ws ih =>
    obtain ⟨p', hp⟩ := ih (fun x hx => h x (List.mem_cons_of_mem _ hx)) (p.past c)
    exact ⟨p', by simp [skipSpaces, h c List.mem_cons_self, hp]⟩

/-- The cursor passes over blanks in front of a token. -/
theorem skip_spaces {ws : List Char} (h : Spaces ws) {c : Char} (hc : isSpace c = false)
    (rest : List Char) (p : Position) (streaming : Bool) :
    ∃ p', Cursor.skip ⟨ws ++ c :: rest, p, streaming, []⟩ = ⟨c :: rest, p', streaming, []⟩ := by
  obtain ⟨p', hp⟩ := skipSpaces_append h (c :: rest) p
  exact ⟨p', by simp [Cursor.skip, hp, skipSpaces, hc]⟩

theorem skip_token {c : Char} (hc : isSpace c = false) (rest : List Char) (p : Position)
    (streaming : Bool) :
    Cursor.skip ⟨c :: rest, p, streaming, []⟩ = ⟨c :: rest, p, streaming, []⟩ := by
  simp [Cursor.skip, skipSpaces, hc]

theorem finish_spaces {ws : List Char} (h : Spaces ws) (p : Position) (streaming : Bool) :
    finish ⟨ws, p, streaming, []⟩ = .ok () := by
  obtain ⟨p', hp⟩ := skipSpaces_append h [] p
  simp only [List.append_nil] at hp
  simp [finish, Cursor.skip, hp, skipSpaces]

/-! ## Strings -/

theorem utf8Size_of_hexValue {c : Char} {n : Nat} (h : hexValue? c = some n) : c.utf8Size = 1 := by
  rw [Char.utf8Size_eq_one_iff]
  unfold hexValue? at h
  simp only [Char.le_def] at h
  split at h
  · rename_i hc
    exact UInt32.le_trans hc.2 (by decide)
  · split at h
    · rename_i hc
      exact UInt32.le_trans hc.2 (by decide)
    · split at h
      · rename_i hc
        exact UInt32.le_trans hc.2 (by decide)
      · cases h

theorem foldl_hexStep_none (digits : List Char) : digits.foldl hexStep none = none := by
  induction digits with
  | nil => rfl
  | cons c cs ih => exact ih

/-- The digits that are left of `\uXXXX` are read to their number. -/
theorem readChars_hex {digits : List Char} {value : Option Nat} {n : Nat}
    (hne : digits ≠ []) (h : digits.foldl hexStep value = some n) {leading : Option Nat}
    {state : StringState} {done : List Char}
    (hc : closeHex (some n) leading = .ok (state, done)) (p : Position) (read rest : List Char) :
    ∃ p', readChars false (.hex digits.length value leading) p read (digits ++ rest) =
      readChars false state p' (done ++ read) rest := by
  induction digits generalizing value p with
  | nil => exact absurd rfl hne
  | cons c cs ih =>
    rw [List.foldl_cons] at h
    have hsize : c.utf8Size = 1 := by
      cases hv : hexStep value c with
      | none => rw [hv, foldl_hexStep_none] at h; cases h
      | some w =>
        obtain ⟨v, -, hv⟩ := Option.bind_eq_some_iff.1 hv
        obtain ⟨x, hx, -⟩ := Option.map_eq_some_iff.1 hv
        exact utf8Size_of_hexValue hx
    simp only [List.cons_append, List.length_cons, readChars, hsize]
    change ∃ p', (if 1 < cs.length + 1 then
      readChars false (.hex (cs.length + 1 - 1) (hexStep value c) leading) _ read _ else _) = _
    cases cs with
    | nil =>
      simp only [List.foldl_nil] at h
      refine ⟨p.past c, ?_⟩
      simp only [List.length_nil, Nat.zero_add, Nat.lt_irrefl, ↓reduceIte, Bool.false_and]
      rw [show (value.bind fun v => (hexValue? c).map (v * 16 + ·)) = some n from h, hc]
      simp
    | cons d ds =>
      simp only [List.length_cons, Nat.lt_add_left_iff_pos, Nat.zero_lt_succ, ↓reduceIte,
        Nat.add_sub_cancel]
      exact ih (by simp) h (p.past c)

/-- A character is read from each of its spellings. -/
theorem readChars_spelling {c : Char} {w : List Char} (h : Spelling c w) (p : Position)
    (read rest : List Char) :
    ∃ p', readChars false .plain p read (w ++ rest) =
      readChars false .plain p' (c :: read) rest := by
  cases h with
  | plain hq hb hc => exact ⟨p.past c, by simp [readChars, hq, hb, Nat.not_lt.2 hc]⟩
  | @letter e he =>
    refine ⟨(p.past '\\').past e, ?_⟩
    have hu : e ≠ 'u' := by rintro rfl; simp [escaped?] at he
    simp [readChars, hu, he]
  | @unit digits hl hn =>
    have hv := c.valid
    have hclose : closeHex (some c.toNat) none = .ok (.plain, [c]) := by
      have h1 : ¬ (0xDC00 ≤ c.toNat ∧ c.toNat ≤ 0xDFFF) := by
        rcases hv with hv | hv <;> simp only [Char.toNat] <;> omega
      have h2 : ¬ (0xD800 ≤ c.toNat ∧ c.toNat ≤ 0xDBFF) := by
        rcases hv with hv | hv <;> simp only [Char.toNat] <;> omega
      simp [closeHex, h1, h2]
    have hne : digits ≠ [] := by rintro rfl; simp at hl
    obtain ⟨p', hp⟩ := readChars_hex hne hn hclose ((p.past '\\').past 'u') read rest
    rw [hl] at hp
    exact ⟨p', by simpa [readChars] using hp⟩
  | @pair high low h l hhl hll hh hl h1 h2 h3 h4 hc =>
    have hopen : closeHex (some h) none = .ok (.backslash h, []) := by
      have : ¬ (0xDC00 ≤ h ∧ h ≤ 0xDFFF) := by omega
      simp [closeHex, this, h1, h2]
    have hclose : closeHex (some l) (some h) = .ok (.plain, [c]) := by
      simp [closeHex, h3, h4, ← hc]
    have hne : high ≠ [] := by rintro rfl; simp at hhl
    have hne' : low ≠ [] := by rintro rfl; simp at hll
    obtain ⟨p₁, hp₁⟩ := readChars_hex hne hh hopen ((p.past '\\').past 'u') read
      ('\\' :: 'u' :: low ++ rest)
    obtain ⟨p₂, hp₂⟩ := readChars_hex hne' hl hclose ((p₁.past '\\').past 'u') read rest
    rw [hhl] at hp₁
    rw [hll] at hp₂
    refine ⟨p₂, ?_⟩
    simp only [List.cons_append, List.append_assoc, readChars] at hp₁ ⊢
    simpa [hp₁, readChars] using hp₂

theorem readChars_spelled {text body : List Char} (h : Spelled text body) (p : Position)
    (read rest : List Char) :
    ∃ p', readChars false .plain p read (body ++ rest) =
      readChars false .plain p' (text.reverse ++ read) rest := by
  induction h generalizing p read with
  | nil => exact ⟨p, rfl⟩
  | @cons c cs w ws hc _ ih =>
    obtain ⟨p₁, hp₁⟩ := readChars_spelling hc p read (ws ++ rest)
    obtain ⟨p₂, hp₂⟩ := ih p₁ (c :: read)
    exact ⟨p₂, by simp [hp₁, hp₂]⟩

theorem readString_takes {text : String} {cs : List Char} (h : WrittenString text cs)
    (rest : List Char) : Takes readString cs text rest := by
  intro p streaming
  obtain ⟨hb⟩ := h
  obtain ⟨p', hp⟩ := readChars_spelled hb (p.past '"') [] ('"' :: rest)
  refine ⟨p'.past '"', ?_⟩
  simp [readString, Cursor.take, hp, readChars, Cursor.brokenBetween?, bind, Except.bind]

/-! ## Numbers -/

/-- A text that goes on with what may follow a value. -/
def Ends (rest : List Char) : Prop :=
  ∀ c ∈ rest.head?, isSpace c = true ∨ c = ',' ∨ c = ']' ∨ c = '\x7d'

theorem Ends.cases {c : Char} {rest : List Char} (h : Ends (c :: rest)) :
    c.isDigit = false ∧ c ≠ '.' ∧ c ≠ 'e' ∧ c ≠ 'E' := by
  have hc := h c rfl
  simp only [isSpace, Bool.or_eq_true, beq_iff_eq] at hc
  rcases hc with (((rfl | rfl) | rfl) | rfl) | rfl | rfl | rfl <;> decide

theorem Ends.noDigit {rest : List Char} (h : Ends rest) : NoDigit rest := by
  cases rest with
  | nil => simp [NoDigit]
  | cons c rest => simpa [NoDigit] using h.cases.1

theorem le_ofDigitChars (digits : List Char) (value : Nat) :
    value ≤ Nat.ofDigitChars 10 digits value := by
  rw [Nat.ofDigitChars_eq_ofDigitChars_zero]
  have : value ≤ 10 ^ digits.length * value := Nat.le_mul_of_pos_left _ (Nat.pow_pos (by decide))
  omega

theorem takeDigits_append {digits rest : List Char} (hd : ∀ c ∈ digits, c.isDigit = true)
    (hr : NoDigit rest) {value : Nat} (hv : Nat.ofDigitChars 10 digits value < UInt64.size)
    (count : Nat) (p : Position) :
    ∃ p', takeDigits value count p (digits ++ rest) =
      (Nat.ofDigitChars 10 digits value, count + digits.length, rest, p') := by
  induction digits generalizing value count p with
  | nil =>
    cases rest with
    | nil => exact ⟨p, rfl⟩
    | cons c rest => exact ⟨p, by simp [takeDigits, hr c rfl]⟩
  | cons c cs ih =>
    simp only [List.forall_mem_cons] at hd
    rw [Nat.ofDigitChars_cons, Nat.mul_comm 10] at hv
    obtain ⟨p', hp⟩ := ih hd.2 hv (count + 1) (p.past c)
    refine ⟨p', ?_⟩
    have hn : value * 10 + (c.toNat - '0'.toNat) < UInt64.size :=
      Nat.lt_of_le_of_lt (le_ofDigitChars cs _) hv
    simp only [List.cons_append, takeDigits, hd.1, hn, and_self, ↓reduceIte, hp,
      Nat.ofDigitChars_cons, Nat.mul_comm 10, List.length_cons]
    congr 2
    omega

/-- A number that ends after its digits is an integer. -/
theorem readAfterInteger_ends {rest : List Char} (h : Ends rest) {negative : Bool} {m : Nat}
    (hm : negative = true → 0 < m ∧ m ≤ 0x8000000000000000) (p : Position) (streaming : Bool) :
    readAfterInteger negative m ⟨rest, p, streaming, []⟩ =
      .ok (.integer (if negative then -(m : Int) else m), ⟨rest, p, streaming, []⟩) := by
  have hvalue : (if !negative then
        .ok (.integer m, ⟨rest, p, streaming, []⟩)
      else if m = 0 ∨ 0x8000000000000000 < m then
        .ok (.float (-(Binary64.ofInt m)), ⟨rest, p, streaming, []⟩)
      else .ok (.integer (-(m : Int)), ⟨rest, p, streaming, []⟩) :
        Except ReadError (Number × Cursor)) =
      .ok (.integer (if negative then -(m : Int) else m), ⟨rest, p, streaming, []⟩) := by
    cases negative with
    | false => simp
    | true =>
      have hr : ¬ (m = 0 ∨ 0x8000000000000000 < m) := by
        have := hm rfl
        omega
      simp [hr]
  unfold readAfterInteger
  split
  · rename_i heq
    rw [show rest = _ from heq] at h
    exact absurd rfl h.cases.2.1
  · rename_i heq
    rw [show rest = _ from heq] at h
    exact absurd rfl h.cases.2.2.1
  · rename_i heq
    rw [show rest = _ from heq] at h
    exact absurd rfl h.cases.2.2.2
  · exact hvalue

theorem readNumber_takes {m : Nat} (hw : m < UInt64.size) (negative : Bool)
    (hm : negative = true → 0 < m ∧ m ≤ 0x8000000000000000) {rest : List Char} (h : Ends rest) :
    Takes (readNumber negative) (Nat.toDigits 10 m)
      (.integer (if negative then -(m : Int) else m)) rest := by
  intro p streaming
  rcases Nat.eq_zero_or_pos m with rfl | hpos
  · refine ⟨p.past '0', ?_⟩
    rw [← readAfterInteger_ends h hm]
    cases rest with
    | nil => simp [readNumber, Cursor.take]
    | cons c rest => simp [readNumber, Cursor.take, h.cases.1]
  · obtain ⟨d, ds, hd, h0, hdig⟩ := toDigits_pos hpos
    have hword : Nat.ofDigitChars 10 (Nat.toDigits 10 m) 0 < UInt64.size := by
      rwa [Nat.ofDigitChars_ten_toDigits]
    obtain ⟨p', hp⟩ := takeDigits_append (fun _ => toDigits_isDigit (n := m)) h.noDigit hword 0 p
    refine ⟨p', ?_⟩
    rw [Nat.ofDigitChars_ten_toDigits] at hp
    rw [← readAfterInteger_ends h hm]
    unfold readNumber
    simp only [hp]
    rw [hd]
    simp only [List.cons_append, h0, hdig, ↓reduceIte]
    cases rest with
    | nil => rfl
    | cons c rest => simp [h.cases.1]

theorem readSigned_takes {n : Int} (hn : IsWord n) {rest : List Char} (h : Ends rest) :
    Takes readSigned (integerText n) (.integer n) rest := by
  intro p streaming
  obtain ⟨hlow, hhigh⟩ := hn
  have hword : n.natAbs < UInt64.size := by
    simp only [UInt64.size]
    omega
  unfold integerText
  split
  · rename_i hneg
    have hr := readNumber_takes hword true (fun _ => by omega) h (p.past '-') streaming
    rw [if_pos rfl, show -(n.natAbs : Int) = n by omega] at hr
    simpa [readSigned, Cursor.take] using hr
  · have hr := readNumber_takes hword false (fun he => by cases he) h p streaming
    rw [if_neg (by decide), show (n.natAbs : Int) = n by omega] at hr
    obtain ⟨d, ds, hd⟩ : ∃ d ds, Nat.toDigits 10 n.natAbs = d :: ds :=
      List.exists_cons_of_ne_nil Nat.toDigits_ne_nil
    have hminus : d ≠ '-' := by
      have := toDigits_isDigit (n := n.natAbs) (c := d) (by rw [hd]; exact List.mem_cons_self)
      rintro rfl
      cases this
    simp only [hd, List.cons_append] at hr ⊢
    simpa [readSigned, hminus] using hr

/-! ## Arrays and objects -/

/-- `reader` takes every text of the kind `item`, with blanks in front of it or not. -/
structure ReadsAll {α : Type} (reader : Reader α) (item : α → List Char → Prop) : Prop where
  head : ∀ {v : α} {cs : List Char}, item v cs →
    ∃ c cs', cs = c :: cs' ∧ isSpace c = false ∧ c ≠ ',' ∧ c ≠ ']'
  takes : ∀ {v : α} {cs ws rest : List Char}, item v cs → Spaces ws → Ends rest →
    Takes reader (ws ++ cs) v rest

theorem ends_spaces {ws : List Char} (h : Spaces ws) {c : Char}
    (hc : c = ',' ∨ c = ']' ∨ c = '\x7d') (rest : List Char) : Ends (ws ++ c :: rest) := by
  cases ws with
  | nil =>
    intro x hx
    cases hx
    exact .inr hc
  | cons w ws =>
    intro x hx
    cases hx
    exact .inl (h w List.mem_cons_self)

theorem More.ends {α : Type} {elem : α → List Char → Prop} {xs : List α} {cs : List Char}
    (h : More elem xs cs) {c : Char} (hc : c = ',' ∨ c = ']' ∨ c = '\x7d') (rest : List Char) :
    Ends (cs ++ c :: rest) := by
  cases h with
  | nil hw => exact ends_spaces hw hc rest
  | cons hw _ _ _ =>
    simp only [List.append_assoc, List.cons_append]
    exact ends_spaces hw (.inl rfl) _

/-- A list has at least as many characters as elements, but for the one without a comma. -/
theorem Listed.length_le {α : Type} {elem : α → List Char → Prop} {xs : List α} {cs : List Char}
    (h : Listed elem xs cs) : xs.length ≤ cs.length + 1 := by
  have more : ∀ {xs cs}, More elem xs cs → xs.length ≤ cs.length := fun hm => by
    induction hm with
    | nil => simp
    | cons _ _ _ _ ih => simp only [List.length_cons, List.length_append]; omega
  cases h with
  | nil => simp
  | cons _ _ hm =>
    have := more hm
    simp only [List.length_cons, List.length_append]
    omega

section
variable {α : Type} {reader : Reader α} {item : α → List Char → Prop}

theorem readItems_more (hr : ReadsAll reader item) {vs : List α} {cs : List Char}
    (h : More item vs cs) {read : List α} (hread : read ≠ []) {fuel : Nat}
    (hf : vs.length < fuel) (rest : List Char) :
    Takes (readItems reader fuel read) (cs ++ [']']) (read.reverse ++ vs) rest := by
  induction h generalizing read fuel with
  | nil hw =>
    intro p streaming
    obtain ⟨fuel, rfl⟩ : ∃ f, fuel = f + 1 := ⟨fuel - 1, by omega⟩
    obtain ⟨p₁, hp₁⟩ := skip_spaces hw (c := ']') (by decide) rest p streaming
    refine ⟨p₁.past ']', ?_⟩
    simp [readItems, hp₁, Cursor.take]
  | @cons ws ws' cs more v vs hw hw' hv hm ih =>
    intro p streaming
    obtain ⟨fuel, rfl⟩ : ∃ f, fuel = f + 1 := ⟨fuel - 1, by omega⟩
    obtain ⟨c, cs', rfl, hc, -, hb⟩ := hr.head hv
    obtain ⟨p₁, hp₁⟩ := skip_spaces hw (c := ',') (by decide)
      (ws' ++ c :: cs' ++ more ++ ']' :: rest) p streaming
    obtain ⟨p₂, hp₂⟩ := skip_spaces hw' hc (cs' ++ more ++ ']' :: rest) (p₁.past ',') streaming
    have hlen : vs.length < fuel := by simp only [List.length_cons] at hf; omega
    obtain ⟨p₃, hp₃⟩ := hr.takes hv spaces_nil (hm.ends (.inr (.inl rfl)) rest) p₂ streaming
    obtain ⟨p₄, hp₄⟩ := ih (List.cons_ne_nil v read) hlen p₃ streaming
    refine ⟨p₄, ?_⟩
    simp only [List.append_assoc, List.cons_append, List.nil_append, List.reverse_cons]
      at hp₁ hp₂ hp₃ hp₄ ⊢
    simp only [readItems, hp₁, hp₂, hp₃, hp₄, Cursor.take, List.tail_cons, List.isEmpty_iff, hread,
      ↓reduceIte, bind, Except.bind]
    split
    · rename_i heq
      cases heq
    · rename_i heq
      exact absurd (List.cons.inj heq).1 hb
    · rfl

theorem readItems_takes (hr : ReadsAll reader item) {vs : List α} {cs : List Char}
    (h : Listed item vs cs) {fuel : Nat} (hf : vs.length < fuel) (rest : List Char) :
    Takes (readItems reader fuel []) (cs ++ [']']) vs rest := by
  intro p streaming
  obtain ⟨fuel, rfl⟩ : ∃ f, fuel = f + 1 := ⟨fuel - 1, by omega⟩
  cases h with
  | nil hw =>
    obtain ⟨p₁, hp₁⟩ := skip_spaces hw (c := ']') (by decide) rest p streaming
    refine ⟨p₁.past ']', ?_⟩
    simp [readItems, hp₁, Cursor.take]
  | @cons ws cs more v vs hw hv hm =>
    obtain ⟨c, cs', rfl, hc, hcomma, hb⟩ := hr.head hv
    obtain ⟨p₁, hp₁⟩ := skip_spaces hw hc (cs' ++ more ++ ']' :: rest) p streaming
    have hlen : vs.length < fuel := by simp only [List.length_cons] at hf; omega
    obtain ⟨p₂, hp₂⟩ := hr.takes hv spaces_nil (hm.ends (.inr (.inl rfl)) rest) p₁ streaming
    obtain ⟨p₃, hp₃⟩ := readItems_more hr hm (List.cons_ne_nil v []) hlen rest p₂ streaming
    refine ⟨p₃, ?_⟩
    simp only [List.append_assoc, List.cons_append, List.nil_append, List.reverse_cons,
      List.reverse_nil] at hp₁ hp₂ hp₃ ⊢
    simp [readItems, hp₁, hp₂, hp₃, hcomma, hb, bind, Except.bind]

end

section
variable {reader : Reader Value} {item : Value → List Char → Prop}

theorem Member.head {m : String × Value} {cs : List Char} (h : Member item m cs) :
    ∃ cs', cs = '"' :: cs' := by
  obtain ⟨⟨_⟩, -, -, -⟩ := h
  exact ⟨_, rfl⟩

/-- A member is read in three steps: its key, the colon, and its value. -/
theorem readMember (hr : ReadsAll reader item) {m : String × Value} {cs rest : List Char}
    (h : Member item m cs) (he : Ends rest) (p : Position) (streaming : Bool) :
    ∃ c₁ c₂ p', readString ⟨cs ++ rest, p, streaming, []⟩ = .ok (m.1, c₁) ∧
      readColon c₁ = .ok c₂ ∧ reader c₂ = .ok (m.2, ⟨rest, p', streaming, []⟩) := by
  obtain @⟨key, v, k, ws, ws', cs, hk, hw, hw', hv⟩ := h
  obtain ⟨p₁, hp₁⟩ := readString_takes hk (ws ++ ':' :: ws' ++ cs ++ rest) p streaming
  obtain ⟨p₂, hp₂⟩ := skip_spaces hw (c := ':') (by decide) (ws' ++ cs ++ rest) p₁ streaming
  obtain ⟨p₃, hp₃⟩ := hr.takes hv hw' he (p₂.past ':') streaming
  refine ⟨⟨ws ++ ':' :: ws' ++ cs ++ rest, p₁, streaming, []⟩,
    ⟨ws' ++ cs ++ rest, p₂.past ':', streaming, []⟩, p₃, ?_, ?_, hp₃⟩
  · simpa using hp₁
  · simp only [List.append_assoc, List.cons_append] at hp₂ ⊢
    simp [readColon, hp₂, Cursor.take]

theorem readMembers_more (hr : ReadsAll reader item) {ms : List (String × Value)} {cs : List Char}
    (h : More (Member item) ms cs) {read : List (String × Value)} (hread : read ≠ []) {fuel : Nat}
    (hf : ms.length < fuel) (rest : List Char) :
    Takes (readMembers reader fuel read) (cs ++ ['\x7d']) (read.reverse ++ ms) rest := by
  induction h generalizing read fuel with
  | nil hw =>
    intro p streaming
    obtain ⟨fuel, rfl⟩ : ∃ f, fuel = f + 1 := ⟨fuel - 1, by omega⟩
    obtain ⟨p₁, hp₁⟩ := skip_spaces hw (c := '\x7d') (by decide) rest p streaming
    refine ⟨p₁.past '\x7d', ?_⟩
    simp [readMembers, nextKey, hp₁, Cursor.take, bind, Except.bind]
  | @cons ws ws' cs more m ms hw hw' hm hmore ih =>
    intro p streaming
    obtain ⟨fuel, rfl⟩ : ∃ f, fuel = f + 1 := ⟨fuel - 1, by omega⟩
    obtain ⟨cs', rfl⟩ := hm.head
    obtain ⟨p₁, hp₁⟩ := skip_spaces hw (c := ',') (by decide)
      (ws' ++ '"' :: cs' ++ more ++ '\x7d' :: rest) p streaming
    obtain ⟨p₂, hp₂⟩ := skip_spaces hw' (c := '"') (by decide) (cs' ++ more ++ '\x7d' :: rest)
      (p₁.past ',') streaming
    have hlen : ms.length < fuel := by simp only [List.length_cons] at hf; omega
    obtain ⟨c₁, c₂, p₃, hkey, hcolon, hvalue⟩ :=
      readMember hr hm (hmore.ends (.inr (.inr rfl)) rest) p₂ streaming
    obtain ⟨p₄, hp₄⟩ := ih (List.cons_ne_nil m read) hlen p₃ streaming
    refine ⟨p₄, ?_⟩
    simp only [List.append_assoc, List.cons_append, List.nil_append, List.reverse_cons]
      at hp₁ hp₂ hkey hvalue hp₄ ⊢
    simp [readMembers, nextKey, hp₁, hp₂, hkey, hcolon, hvalue, hp₄, Cursor.take, hread, bind,
      Except.bind]

theorem readMembers_takes (hr : ReadsAll reader item) {ms : List (String × Value)}
    {cs : List Char} (h : Listed (Member item) ms cs) {fuel : Nat} (hf : ms.length < fuel)
    (rest : List Char) : Takes (readMembers reader fuel []) (cs ++ ['\x7d']) ms rest := by
  intro p streaming
  obtain ⟨fuel, rfl⟩ : ∃ f, fuel = f + 1 := ⟨fuel - 1, by omega⟩
  cases h with
  | nil hw =>
    obtain ⟨p₁, hp₁⟩ := skip_spaces hw (c := '\x7d') (by decide) rest p streaming
    refine ⟨p₁.past '\x7d', ?_⟩
    simp [readMembers, nextKey, hp₁, Cursor.take, bind, Except.bind]
  | @cons ws cs more m ms hw hm hmore =>
    obtain ⟨cs', rfl⟩ := hm.head
    obtain ⟨p₁, hp₁⟩ := skip_spaces hw (c := '"') (by decide) (cs' ++ more ++ '\x7d' :: rest) p
      streaming
    have hlen : ms.length < fuel := by simp only [List.length_cons] at hf; omega
    obtain ⟨c₁, c₂, p₂, hkey, hcolon, hvalue⟩ :=
      readMember hr hm (hmore.ends (.inr (.inr rfl)) rest) p₁ streaming
    obtain ⟨p₃, hp₃⟩ := readMembers_more hr hmore (List.cons_ne_nil m []) hlen rest p₂ streaming
    refine ⟨p₃, ?_⟩
    simp only [List.append_assoc, List.cons_append, List.nil_append, List.reverse_cons,
      List.reverse_nil] at hp₁ hkey hvalue hp₃ ⊢
    simp [readMembers, nextKey, hp₁, hkey, hcolon, hvalue, hp₃, bind, Except.bind]

end

/-! ## Values -/

theorem readWord_append (word rest : List Char) (p : Position) (streaming : Bool) :
    ∃ p', readWord word ⟨word ++ rest, p, streaming, []⟩ = .ok ⟨rest, p', streaming, []⟩ := by
  induction word generalizing p with
  | nil => exact ⟨p, rfl⟩
  | cons w word ih =>
    obtain ⟨p', hp⟩ := ih (p.past w)
    exact ⟨p', by simpa [readWord, Cursor.take] using hp⟩

theorem integerText_head {n : Int} :
    ∃ c cs, integerText n = c :: cs ∧ (c = '-' ∨ c.isDigit = true) := by
  unfold integerText
  split
  · exact ⟨_, _, rfl, .inl rfl⟩
  · obtain ⟨d, ds, hd⟩ := List.exists_cons_of_ne_nil (Nat.toDigits_ne_nil (n := n.natAbs) (b := 10))
    exact ⟨d, ds, hd, .inr (toDigits_isDigit (hd ▸ List.mem_cons_self))⟩

theorem digit_ne {c d : Char} (h : c = '-' ∨ c.isDigit = true) (hd : d.isDigit = false)
    (hm : d ≠ '-') : c ≠ d := by
  rintro rfl
  rcases h with rfl | h
  · exact hm rfl
  · rw [hd] at h
    cases h

theorem digit_not_space {c : Char} (h : c = '-' ∨ c.isDigit = true) : isSpace c = false := by
  simp [isSpace, digit_ne h (d := ' ') rfl (by decide), digit_ne h (d := '\n') rfl (by decide),
    digit_ne h (d := '\t') rfl (by decide), digit_ne h (d := '\r') rfl (by decide)]

theorem Scalar.head {v : Value} {cs : List Char} (h : Scalar v cs) :
    ∃ c cs', cs = c :: cs' ∧ isSpace c = false ∧ c ≠ ',' ∧ c ≠ ']' := by
  cases h with
  | nullWord | trueWord | falseWord => exact ⟨_, _, rfl, by decide, by decide, by decide⟩
  | string hs =>
    obtain ⟨_⟩ := hs
    exact ⟨_, _, rfl, by decide, by decide, by decide⟩
  | @integer n _ =>
    obtain ⟨c, cs, hcs, hc⟩ := integerText_head (n := n)
    exact ⟨c, cs, hcs, digit_not_space hc, digit_ne hc rfl (by decide),
      digit_ne hc rfl (by decide)⟩

theorem Written.head {depth : Nat} {v : Value} {cs : List Char} (h : Written depth v cs) :
    ∃ c cs', cs = c :: cs' ∧ isSpace c = false ∧ c ≠ ',' ∧ c ≠ ']' := by
  cases depth with
  | zero => exact Scalar.head h
  | succ depth =>
    rcases h with h | h
    · exact h.head
    · cases h with
      | array | object => exact ⟨_, _, rfl, by decide, by decide, by decide⟩

/-- A word is read to the value that it stands for. -/
theorem readValue_word {c : Char} {cs rest : List Char} {v : Value}
    (h : word? c = some (c :: cs, v)) (hq : c ≠ '"') (ha : c ≠ '[') (ho : c ≠ '\x7b')
    (hs : isSpace c = false) (depth : Nat) (p : Position) (streaming : Bool) :
    ∃ p', readValue (depth + 1) ⟨c :: cs ++ rest, p, streaming, []⟩ =
      .ok (v, ⟨rest, p', streaming, []⟩) := by
  obtain ⟨p₁, hp₁⟩ := readWord_append (c :: cs) rest p streaming
  refine ⟨p₁, ?_⟩
  rw [readValue, List.cons_append, skip_token hs]
  split
  · rename_i heq
    cases heq
  · rename_i heq
    exact absurd (List.cons.inj heq).1 hq
  · rename_i heq
    exact absurd (List.cons.inj heq).1 ha
  · rename_i heq
    exact absurd (List.cons.inj heq).1 ho
  · rename_i heq
    obtain ⟨rfl, -⟩ := List.cons.inj heq
    rw [List.cons_append] at hp₁
    simp only [h, hp₁, bind, Except.bind]

theorem readValue_skip {ws : List Char} (hw : Spaces ws) {c : Char} (hc : isSpace c = false)
    (depth : Nat) (rest : List Char) (p : Position) (streaming : Bool) :
    ∃ p', readValue (depth + 1) ⟨ws ++ c :: rest, p, streaming, []⟩ =
      readValue (depth + 1) ⟨c :: rest, p', streaming, []⟩ := by
  obtain ⟨p', hp⟩ := skip_spaces hw hc rest p streaming
  refine ⟨p', ?_⟩
  rw [readValue, readValue, hp, skip_token hc]

/-- A number is read to the value that it stands for. -/
theorem readValue_integer {n : Int} (hn : IsWord n) {rest : List Char} (he : Ends rest)
    (depth : Nat) : Takes (readValue (depth + 1)) (integerText n) (.number (.integer n)) rest := by
  intro p streaming
  obtain ⟨d, ds, hd, hdig⟩ := integerText_head (n := n)
  obtain ⟨p', hp⟩ := readSigned_takes hn he p streaming
  refine ⟨p', ?_⟩
  have hword : word? d = none := by
    unfold word?
    split
    · exact absurd rfl (digit_ne hdig rfl (by decide))
    · exact absurd rfl (digit_ne hdig rfl (by decide))
    · exact absurd rfl (digit_ne hdig rfl (by decide))
    · rfl
  rw [hd, List.cons_append] at hp ⊢
  rw [readValue, skip_token (digit_not_space hdig)]
  split
  · rename_i heq
    cases heq
  · rename_i heq
    exact absurd (List.cons.inj heq).1 (digit_ne hdig rfl (by decide))
  · rename_i heq
    exact absurd (List.cons.inj heq).1 (digit_ne hdig rfl (by decide))
  · rename_i heq
    exact absurd (List.cons.inj heq).1 (digit_ne hdig rfl (by decide))
  · rename_i heq
    obtain ⟨rfl, -⟩ := List.cons.inj heq
    simp only [hword, hdig, hp, ↓reduceIte, bind, Except.bind]

theorem readValue_scalar {v : Value} {cs : List Char} (h : Scalar v cs) (depth : Nat)
    {rest : List Char} (he : Ends rest) : Takes (readValue (depth + 1)) cs v rest := by
  cases h with
  | nullWord =>
    exact readValue_word (c := 'n') rfl (by decide) (by decide) (by decide) (by decide) depth
  | trueWord =>
    exact readValue_word (c := 't') rfl (by decide) (by decide) (by decide) (by decide) depth
  | falseWord =>
    exact readValue_word (c := 'f') rfl (by decide) (by decide) (by decide) (by decide) depth
  | integer hn => exact readValue_integer hn he depth
  | string hs =>
    intro p streaming
    obtain ⟨p', hp⟩ := readString_takes hs rest p streaming
    obtain ⟨_⟩ := hs
    refine ⟨p', ?_⟩
    rw [List.cons_append, List.cons_append] at hp ⊢
    rw [readValue, skip_token (by decide)]
    simp only [hp, bind, Except.bind]

theorem readValue_compound {depth : Nat} (hr : ReadsAll (readValue (depth + 1)) (Written depth))
    {v : Value} {cs : List Char} (h : Compound (Written depth) v cs) (rest : List Char) :
    Takes (readValue (depth + 2)) cs v rest := by
  intro p streaming
  cases h with
  | @array vs cs hi =>
    have hlen : vs.length < ('[' :: cs ++ [']'] ++ rest).length := by
      have := hi.length_le
      simp only [List.length_append, List.length_cons]
      omega
    obtain ⟨p', hp⟩ := readItems_takes hr hi hlen rest (p.past '[') streaming
    refine ⟨p', ?_⟩
    rw [readValue]
    simp only [List.append_assoc, List.cons_append, List.nil_append] at hp ⊢
    rw [skip_token (by decide)]
    simp only [Nat.add_eq_zero_iff, Nat.one_ne_zero, and_false, ↓reduceIte, Cursor.take,
      List.tail_cons, hp, bind, Except.bind]
  | @object ms cs hm =>
    have hlen : ms.length < ('\x7b' :: cs ++ ['\x7d'] ++ rest).length := by
      have := hm.length_le
      simp only [List.length_append, List.length_cons]
      omega
    obtain ⟨p', hp⟩ := readMembers_takes hr hm hlen rest (p.past '\x7b') streaming
    refine ⟨p', ?_⟩
    rw [readValue]
    simp only [List.append_assoc, List.cons_append, List.nil_append] at hp ⊢
    rw [skip_token (by decide)]
    simp only [Nat.add_eq_zero_iff, Nat.one_ne_zero, and_false, ↓reduceIte, Cursor.take,
      List.tail_cons, hp, bind, Except.bind]

/-- Every text of a value is read to it, by a reader that may go so deep. -/
theorem readValue_readsAll (depth : Nat) : ReadsAll (readValue (depth + 1)) (Written depth) := by
  induction depth with
  | zero =>
    refine ⟨Written.head, fun {v cs ws rest} h hw he p streaming => ?_⟩
    obtain ⟨c, cs', rfl, hc, -⟩ := Written.head h
    obtain ⟨p₁, hp₁⟩ := readValue_skip hw hc 0 (cs' ++ rest) p streaming
    rw [List.append_assoc, List.cons_append, hp₁]
    exact readValue_scalar h 0 he p₁ streaming
  | succ depth ih =>
    refine ⟨Written.head, fun {v cs ws rest} h hw he p streaming => ?_⟩
    obtain ⟨c, cs', rfl, hc, -⟩ := Written.head h
    obtain ⟨p₁, hp₁⟩ := readValue_skip hw hc (depth + 1) (cs' ++ rest) p streaming
    rw [List.append_assoc, List.cons_append, hp₁]
    rcases h with h | h
    · exact readValue_scalar h (depth + 1) he p₁ streaming
    · exact readValue_compound ih h rest p₁ streaming

/-- A text is read to the value that it is a text of, with blanks around it or without. -/
theorem parse_of_isText {v : Value} {cs : List Char} (h : IsText v cs) {ws ws' : List Char}
    (hw : Spaces ws) (hw' : Spaces ws') : parse (String.ofList (ws ++ cs ++ ws')) = .ok v := by
  have he : Ends ws' := by
    cases ws' with
    | nil => simp [Ends]
    | cons w ws' => exact fun c hc => by cases hc; exact .inl (hw' w List.mem_cons_self)
  obtain ⟨p, hp⟩ := (readValue_readsAll 127).takes h hw he ⟨1, 0⟩ false
  simp only [parse, Cursor.ofText, String.toList_ofList, depthLimit, hp, finish_spaces hw', bind,
    Except.bind]

end Folio.Json
