import Folio.Proofs.Json.Decoding
import Folio.Proofs.Json.Invariant

/-!
# Numbers before what follows

A number that is read to the end of its text is read the same before whatever may follow a value:
the characters after the text play no part (`Local`). So a text that reads back as a number also
does so inside of a file (`decodes_float32`).
-/

set_option autoImplicit false

namespace Folio.Json

/-- What is read does not depend on what follows the text, nor does what is left of it. -/
def Local {α : Type} (reader : Reader α) : Prop :=
  ∀ ⦃cs : List Char⦄ ⦃p₀ : Position⦄ ⦃s₀ : Bool⦄ ⦃a : α⦄ ⦃left : Cursor⦄,
    reader ⟨cs, p₀, s₀, []⟩ = .ok (a, left) → ∀ ⦃rest : List Char⦄, Ends rest →
      ∀ p streaming, ∃ p', reader ⟨cs ++ rest, p, streaming, []⟩ =
        .ok (a, ⟨left.rest ++ rest, p', streaming, []⟩)

/-! ## Digits -/

section
variable {rest : List Char} (h : NoDigit rest)
include h

theorem takeDigits_local (cs : List Char) (value count : Nat) (p p₀ : Position) :
    ∃ p', takeDigits value count p (cs ++ rest) =
      ((takeDigits value count p₀ cs).1, (takeDigits value count p₀ cs).2.1,
        (takeDigits value count p₀ cs).2.2.1 ++ rest, p') := by
  induction cs generalizing value count p p₀ with
  | nil =>
    cases rest with
    | nil => exact ⟨p, rfl⟩
    | cons c rest => exact ⟨p, by simp [takeDigits, h c rfl]⟩
  | cons c cs ih =>
    simp only [List.cons_append, takeDigits]
    split
    · exact ih _ _ _ _
    · exact ⟨p, rfl⟩

theorem dropDigits_local (cs : List Char) (count : Nat) (p p₀ : Position) :
    ∃ p', dropDigits count p (cs ++ rest) =
      ((dropDigits count p₀ cs).1, (dropDigits count p₀ cs).2.1 ++ rest, p') := by
  induction cs generalizing count p p₀ with
  | nil =>
    cases rest with
    | nil => exact ⟨p, rfl⟩
    | cons c rest => exact ⟨p, by simp [dropDigits, h c rfl]⟩
  | cons c cs ih =>
    simp only [List.cons_append, dropDigits]
    split
    · exact ih _ _ _
    · exact ⟨p, rfl⟩

theorem takeExponent_local (cs : List Char) (value : Nat) (p p₀ : Position) :
    ∃ p', takeExponent value p (cs ++ rest) =
      ((takeExponent value p₀ cs).1, (takeExponent value p₀ cs).2.1 ++ rest, p',
        (takeExponent value p₀ cs).2.2.2) := by
  induction cs generalizing value p p₀ with
  | nil =>
    cases rest with
    | nil => exact ⟨p, rfl⟩
    | cons c rest => exact ⟨p, by simp [takeExponent, h c rfl]⟩
  | cons c cs ih =>
    simp only [List.cons_append, takeExponent]
    split
    · split
      · exact ih _ _ _
      · exact ⟨p.past c, rfl⟩
    · exact ⟨p, rfl⟩

end

/-! ## Fractions and exponents -/

theorem closeFloat_local (negative : Bool) (m : Nat) (e : Int) :
    Local (closeFloat negative m e) := by
  intro cs p₀ s₀ a left h rest _ p streaming
  unfold closeFloat at h ⊢
  split at h
  · cases h
    exact ⟨p, rfl⟩
  · cases h

/-- Reads an exponent after its sign. -/
def readPower (negative : Bool) (m : Nat) (e : Int) (down : Bool) : Reader Number := fun c =>
  match c.rest with
  | [] => c.failHere .eofInValue
  | d :: _ =>
    if d.isDigit then
      let taken := takeExponent 0 c.position c.rest
      let c := { c with rest := taken.2.1, position := taken.2.2.1 }
      if taken.2.2.2 then
        if m ≠ 0 ∧ !down then c.failHere .numberOutOfRange
        else
          let dropped := dropDigits 0 c.position c.rest
          .ok (.float (if negative then -0.0 else 0.0),
            { c with rest := dropped.2.1, position := dropped.2.2 })
      else closeFloat negative m (if down then e - taken.1 else e + taken.1) c
    else c.failNext .invalidNumber

theorem readExponent_plus (negative : Bool) (m : Nat) (e : Int) (cs : List Char) (p : Position)
    (streaming : Bool) :
    readExponent negative m e ⟨'+' :: cs, p, streaming, []⟩ =
      readPower negative m e false ⟨cs, p.past '+', streaming, []⟩ := rfl

theorem readExponent_minus (negative : Bool) (m : Nat) (e : Int) (cs : List Char) (p : Position)
    (streaming : Bool) :
    readExponent negative m e ⟨'-' :: cs, p, streaming, []⟩ =
      readPower negative m e true ⟨cs, p.past '-', streaming, []⟩ := rfl

theorem readExponent_unsigned (negative : Bool) (m : Nat) (e : Int) {c : Char} {cs : List Char}
    (hplus : c ≠ '+') (hminus : c ≠ '-') (p : Position) (streaming : Bool) :
    readExponent negative m e ⟨c :: cs, p, streaming, []⟩ =
      readPower negative m e false ⟨c :: cs, p, streaming, []⟩ := by
  unfold readExponent
  split
  rename_i down cursor heq
  split at heq
  · rename_i hrest
    exact absurd (List.cons.inj hrest).1 hplus
  · rename_i hrest
    exact absurd (List.cons.inj hrest).1 hminus
  · cases heq
    rfl

theorem readPower_local (negative : Bool) (m : Nat) (e : Int) (down : Bool) :
    Local (readPower negative m e down) := by
  intro cs p₀ s₀ a left h rest he p streaming
  cases cs with
  | nil => cases h
  | cons d ds =>
    obtain ⟨p₁, hp₁⟩ := takeExponent_local he.noDigit (d :: ds) 0 p p₀
    rcases htaken : takeExponent 0 p₀ (d :: ds) with ⟨exponent, r, q, overflow⟩
    rw [htaken] at hp₁
    unfold readPower at h ⊢
    simp only [List.cons_append, htaken] at h hp₁ ⊢
    simp only [hp₁]
    split at h
    · rename_i hd
      rw [if_pos hd]
      cases overflow with
      | false =>
        simp only [Bool.false_eq_true, if_false] at h ⊢
        exact closeFloat_local negative m _ h he p₁ streaming
      | true =>
        simp only [if_true] at h ⊢
        split at h
        · cases h
        · rename_i hlarge
          obtain ⟨p₂, hp₂⟩ := dropDigits_local he.noDigit r 0 p₁ q
          cases h
          exact ⟨p₂, by rw [if_neg hlarge, hp₂]⟩
    · cases h

theorem readExponent_local (negative : Bool) (m : Nat) (e : Int) :
    Local (readExponent negative m e) := by
  intro cs p₀ s₀ a left h rest he p streaming
  cases cs with
  | nil => cases h
  | cons c cs =>
    by_cases hplus : c = '+'
    · subst hplus
      rw [readExponent_plus] at h
      rw [List.cons_append, readExponent_plus]
      exact readPower_local negative m e false h he (p.past '+') streaming
    · by_cases hminus : c = '-'
      · subst hminus
        rw [readExponent_minus] at h
        rw [List.cons_append, readExponent_minus]
        exact readPower_local negative m e true h he (p.past '-') streaming
      · rw [readExponent_unsigned negative m e hplus hminus] at h
        rw [List.cons_append, readExponent_unsigned negative m e hplus hminus]
        exact readPower_local negative m e false h he p streaming

theorem readScaled_local (negative : Bool) (m : Nat) (e : Int) :
    Local (readScaled negative m e) := by
  intro cs p₀ s₀ a left h rest he p streaming
  cases cs with
  | nil =>
    have hclose := closeFloat_local negative m e h he p streaming
    cases rest with
    | nil => exact hclose
    | cons c rest =>
      obtain ⟨-, -, hsmall, hlarge⟩ := he.cases
      simpa [readScaled, hsmall, hlarge] using hclose
  | cons c cs =>
    unfold readScaled at h ⊢
    simp only [List.cons_append] at h ⊢
    split at h
    · rename_i hc
      simp only [if_pos hc]
      exact readExponent_local negative m e h he (p.past c) streaming
    · rename_i hc
      simp only [if_neg hc]
      exact closeFloat_local negative m e h he p streaming

theorem readFraction_local (negative : Bool) (m : Nat) (e : Int) :
    Local (readFraction negative m e) := by
  intro cs p₀ s₀ a left h rest he p streaming
  obtain ⟨p₁, hp₁⟩ := takeDigits_local he.noDigit cs m 0 p p₀
  rcases htaken : takeDigits m 0 p₀ cs with ⟨n, count, r, q⟩
  rw [htaken] at hp₁
  unfold readFraction at h ⊢
  simp only [htaken] at h
  simp only [hp₁]
  cases r with
  | nil =>
    by_cases hcount : count = 0
    · simp only [if_pos hcount] at h
      cases h
    · simp only [if_neg hcount] at h
      have hscaled := readScaled_local negative n _ h he p₁ streaming
      cases rest with
      | nil => simpa [hcount] using hscaled
      | cons c rest => simpa [hcount, he.cases.1] using hscaled
  | cons d r =>
    simp only [List.cons_append] at h ⊢
    by_cases hd : d.isDigit = true
    · simp only [if_pos hd] at h ⊢
      obtain ⟨p₂, hp₂⟩ := dropDigits_local he.noDigit (d :: r) 0 p₁ q
      rw [List.cons_append] at hp₂
      simp only [hp₂]
      exact readScaled_local negative n _ h he p₂ streaming
    · simp only [if_neg hd] at h ⊢
      by_cases hcount : count = 0
      · simp only [if_pos hcount] at h
        cases h
      · simp only [if_neg hcount] at h ⊢
        exact readScaled_local negative n _ h he p₁ streaming

/-! ## Whole numbers -/

/-- The number of digits that nothing follows. -/
def wholeNumber (negative : Bool) (m : Nat) : Number :=
  if !negative then .integer m
  else if m = 0 ∨ 0x8000000000000000 < m then .float (-(Binary64.ofInt m))
  else .integer (-(m : Int))

theorem readAfterInteger_plain {text : List Char}
    (h : ∀ c ∈ text.head?, c ≠ '.' ∧ c ≠ 'e' ∧ c ≠ 'E') (negative : Bool) (m : Nat) (p : Position)
    (streaming : Bool) :
    readAfterInteger negative m ⟨text, p, streaming, []⟩ =
      .ok (wholeNumber negative m, ⟨text, p, streaming, []⟩) := by
  unfold readAfterInteger
  split
  · rename_i heq
    exact absurd rfl (h '.' (by rw [show text = _ from heq]; rfl)).1
  · rename_i heq
    exact absurd rfl (h 'e' (by rw [show text = _ from heq]; rfl)).2.1
  · rename_i heq
    exact absurd rfl (h 'E' (by rw [show text = _ from heq]; rfl)).2.2
  · unfold wholeNumber
    split
    · rfl
    · split
      · rfl
      · rfl

theorem readAfterInteger_local (negative : Bool) (m : Nat) :
    Local (readAfterInteger negative m) := by
  intro cs p₀ s₀ a left h rest he p streaming
  have hrest : ∀ c ∈ rest.head?, c ≠ '.' ∧ c ≠ 'e' ∧ c ≠ 'E' := by
    intro c hc
    obtain ⟨tail, rfl⟩ := List.head?_eq_some_iff.1 hc
    exact he.cases.2
  cases cs with
  | nil =>
    rw [readAfterInteger_plain (by simp)] at h
    cases h
    exact ⟨p, readAfterInteger_plain hrest negative m p streaming⟩
  | cons c cs =>
    by_cases hpoint : c = '.'
    · subst hpoint
      exact readFraction_local negative m 0 h he (p.past '.') streaming
    · by_cases hsmall : c = 'e'
      · subst hsmall
        exact readExponent_local negative m 0 h he (p.past 'e') streaming
      · by_cases hlarge : c = 'E'
        · subst hlarge
          exact readExponent_local negative m 0 h he (p.past 'E') streaming
        · rw [readAfterInteger_plain (by simp [hpoint, hsmall, hlarge])] at h
          cases h
          refine ⟨p, readAfterInteger_plain ?_ negative m p streaming⟩
          simp [hpoint, hsmall, hlarge]

/-- Reads what follows the digits of a number that has too many of them. -/
def readLong (negative : Bool) (m : Nat) (e : Int) : Reader Number := fun c =>
  match c.rest with
  | '.' :: _ => readFraction negative m e (c.take '.')
  | _ => readScaled negative m e c

theorem readLong_local (negative : Bool) (m : Nat) (e : Int) : Local (readLong negative m e) := by
  intro cs p₀ s₀ a left h rest he p streaming
  have hplain {text : List Char} (htext : ∀ c ∈ text.head?, c ≠ '.') (p : Position)
      (streaming : Bool) : readLong negative m e ⟨text, p, streaming, []⟩ =
        readScaled negative m e ⟨text, p, streaming, []⟩ := by
    unfold readLong
    split
    · rename_i heq
      exact absurd rfl (htext '.' (by rw [show text = _ from heq]; rfl))
    · rfl
  cases cs with
  | nil =>
    have hrest : ∀ c ∈ rest.head?, c ≠ '.' := by
      intro c hc
      obtain ⟨tail, rfl⟩ := List.head?_eq_some_iff.1 hc
      exact he.cases.2.1
    rw [hplain (by simp)] at h
    rw [List.nil_append, hplain hrest]
    exact readScaled_local negative m e h he p streaming
  | cons c cs =>
    by_cases hpoint : c = '.'
    · subst hpoint
      exact readFraction_local negative m e h he (p.past '.') streaming
    · rw [hplain (by simp [hpoint])] at h
      rw [List.cons_append, hplain (by simp [hpoint])]
      exact readScaled_local negative m e h he p streaming

theorem readNumber_local (negative : Bool) : Local (readNumber negative) := by
  intro cs p₀ s₀ a left h rest he p streaming
  cases cs with
  | nil => cases h
  | cons d ds =>
    unfold readNumber at h ⊢
    simp only [List.cons_append] at h ⊢
    by_cases hzero : d = '0'
    · simp only [if_pos hzero, Cursor.take, List.tail_cons] at h ⊢
      cases ds with
      | nil =>
        have hafter := readAfterInteger_local negative 0 h he (p.past d) streaming
        cases rest with
        | nil => exact hafter
        | cons c rest => simpa [he.cases.1] using hafter
      | cons c ds =>
        simp only [List.cons_append] at h ⊢
        by_cases hc : c.isDigit = true
        · simp only [if_pos hc] at h
          cases h
        · simp only [if_neg hc] at h ⊢
          exact readAfterInteger_local negative 0 h he (p.past d) streaming
    · simp only [if_neg hzero] at h ⊢
      by_cases hd : d.isDigit = true
      · simp only [if_pos hd] at h ⊢
        obtain ⟨p₁, hp₁⟩ := takeDigits_local he.noDigit (d :: ds) 0 0 p p₀
        rcases htaken : takeDigits 0 0 p₀ (d :: ds) with ⟨m, count, r, q⟩
        rw [htaken, List.cons_append] at hp₁
        simp only [htaken] at h
        simp only [hp₁]
        cases r with
        | nil =>
          have hafter := readAfterInteger_local negative m h he p₁ streaming
          cases rest with
          | nil => exact hafter
          | cons c rest => simpa [he.cases.1] using hafter
        | cons c r =>
          simp only [List.cons_append] at h ⊢
          by_cases hc : c.isDigit = true
          · simp only [if_pos hc] at h ⊢
            obtain ⟨p₂, hp₂⟩ := dropDigits_local he.noDigit (c :: r) 0 p₁ q
            rw [List.cons_append] at hp₂
            simp only [hp₂]
            exact readLong_local negative m _ h he p₂ streaming
          · simp only [if_neg hc] at h ⊢
            exact readAfterInteger_local negative m h he p₁ streaming
      · simp only [if_neg hd] at h
        cases h

theorem readSigned_local : Local readSigned := by
  intro cs p₀ s₀ a left h rest he p streaming
  cases cs with
  | nil => cases h
  | cons c cs =>
    by_cases hminus : c = '-'
    · subst hminus
      exact readNumber_local true h he (p.past '-') streaming
    · have hplain (text : List Char) (p : Position) (streaming : Bool) :
          readSigned ⟨c :: text, p, streaming, []⟩ =
            readNumber false ⟨c :: text, p, streaming, []⟩ := by
        unfold readSigned
        split
        · rename_i heq
          exact absurd (List.cons.inj heq).1 hminus
        · rfl
      rw [hplain] at h
      rw [List.cons_append, hplain]
      exact readNumber_local false h he p streaming

/-! ## Floating-point numbers -/

/-- All of the text of a number is taken when it is read, and yields the number. -/
def ReadsBack (x : Float32) : Prop :=
  ∃ p, Decoder.float32.read (.ofStream (String.ofList (float32Text x))) = .ok (x, ⟨[], p, true, []⟩)

theorem Decodes.spaces {α : Type} {d : Decoder α} {a : α} {cs ws : List Char} (h : Decodes d a cs)
    (hw : Spaces ws) : Decodes d a (ws ++ cs) := by
  intro ws' rest hw' he
  have hboth : Spaces (ws' ++ ws) := by
    intro c hc
    rcases List.mem_append.1 hc with hc | hc
    · exact hw' c hc
    · exact hw c hc
  rw [← List.append_assoc]
  exact h hboth he

theorem skipSpaces_split (text : List Char) (p : Position) :
    ∃ ws, Spaces ws ∧ text = ws ++ (skipSpaces text p).1 := by
  induction text generalizing p with
  | nil => exact ⟨[], spaces_nil, rfl⟩
  | cons c cs ih =>
    unfold skipSpaces
    split
    · rename_i hc
      obtain ⟨ws, hws, hsplit⟩ := ih (p.past c)
      refine ⟨c :: ws, ?_, congrArg (c :: ·) hsplit⟩
      intro x hx
      rcases List.mem_cons.1 hx with rfl | hx
      · exact hc
      · exact hws x hx
    · exact ⟨[], spaces_nil, rfl⟩

theorem decodes_float32 {x : Float32} (h : ReadsBack x) :
    ∃ ws c cs, float32Text x = ws ++ c :: cs ∧ Spaces ws ∧ (c = '-' ∨ c.isDigit = true) ∧
      Decodes .float32 x (c :: cs) := by
  obtain ⟨p, hread⟩ := h
  rw [Cursor.ofStream, String.toList_ofList] at hread
  obtain ⟨c, cs, n, hrest, hc, hsigned, hn⟩ := numberAs_ok hread
  obtain ⟨ws, hws, hsplit⟩ := skipSpaces_split (float32Text x) ⟨1, 0⟩
  have hskipped : (skipSpaces (float32Text x) ⟨1, 0⟩).1 = c :: cs := hrest
  rw [hskipped] at hsplit
  refine ⟨ws, c, cs, hsplit, hws, hc, decodes_numberAs hn hc fun rest he p streaming => ?_⟩
  simp only [Cursor.skip, hskipped] at hsigned
  exact readSigned_local hsigned he p streaming

end Folio.Json
