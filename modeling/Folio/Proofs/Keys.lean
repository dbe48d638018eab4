import Folio.Proofs.Digits
import Folio.Reply
import Mathlib.Data.List.TakeWhile

/-!
# The keys of a reply

A key denotes a page by decimal digits, with a plus in front of them or not and blanks around them;
leading zeros do no harm. `Denotes` says so, and `page?` finds what a key denotes
(`page?_eq_some_iff`).
-/

set_option autoImplicit false

namespace Folio.Reply

def Denotes (key : String) (n : PageNumber) : Prop :=
  ∃ sign digits, Text.trim key.toList = sign ++ digits ∧ (sign = [] ∨ sign = ['+']) ∧
    digits ≠ [] ∧ (∀ d ∈ digits, d.isDigit = true) ∧ Nat.ofDigitChars 10 digits 0 = n.toNat

/-- Digits are read up to the first character that is none. -/
theorem readDigits_eq (text : List Char) :
    readDigits 0 0 text = (Nat.ofDigitChars 10 (text.takeWhile Char.isDigit) 0,
      (text.takeWhile Char.isDigit).length, text.dropWhile Char.isDigit) := by
  have hdigits : ∀ c ∈ text.takeWhile Char.isDigit, c.isDigit = true :=
    fun c hc => List.mem_takeWhile_imp hc
  have hrest : NoDigit (text.dropWhile Char.isDigit) := fun c hc => by
    have := List.head?_dropWhile_not Char.isDigit text
    rw [hc] at this
    simpa using this
  have hread := readDigits_append hdigits hrest 0 0
  rwa [List.takeWhile_append_dropWhile, Nat.zero_add] at hread

/-- The number of 32 bits that digits denote. -/
def ofDigits? (digits : List Char) : Option PageNumber :=
  match readDigits 0 0 digits with
  | (_, 0, _) => none
  | (n, _, []) => if n < UInt32.size then some (UInt32.ofNat n) else none
  | _ => none

theorem ofDigits?_of_digits {digits : List Char} (hne : digits ≠ [])
    (hd : ∀ d ∈ digits, d.isDigit = true) :
    ofDigits? digits = if Nat.ofDigitChars 10 digits 0 < UInt32.size then
      some (UInt32.ofNat (Nat.ofDigitChars 10 digits 0)) else none := by
  have htake : digits.takeWhile Char.isDigit = digits := List.takeWhile_eq_self_iff.2 hd
  have hdrop : digits.dropWhile Char.isDigit = [] := List.dropWhile_eq_nil_iff.2 hd
  obtain ⟨d, ds, rfl⟩ := List.exists_cons_of_ne_nil hne
  rw [ofDigits?, readDigits_eq, htake, hdrop]
  rfl

theorem ofDigits?_eq_some_iff {digits : List Char} {n : PageNumber} :
    ofDigits? digits = some n ↔
      digits ≠ [] ∧ (∀ d ∈ digits, d.isDigit = true) ∧ Nat.ofDigitChars 10 digits 0 = n.toNat := by
  by_cases hd : ∀ d ∈ digits, d.isDigit = true
  · by_cases hne : digits = []
    · subst hne
      simp [ofDigits?, readDigits]
    · have hn := n.toNat_lt_size
      rw [ofDigits?_of_digits hne hd]
      constructor
      · intro h
        split at h
        · rename_i hsize
          cases h
          exact ⟨hne, hd, (UInt32.toNat_ofNat_of_lt' hsize).symm⟩
        · cases h
      · rintro ⟨-, -, h⟩
        rw [h, if_pos hn, UInt32.ofNat_toNat]
  · obtain ⟨c, rest, hdrop⟩ :=
      List.exists_cons_of_ne_nil (mt List.dropWhile_eq_nil_iff.1 hd)
    have hnone : ofDigits? digits = none := by
      rw [ofDigits?, readDigits_eq, hdrop]
      split
      · rfl
      · rename_i heq
        cases heq
      · rfl
    rw [hnone]
    simp [hd]

theorem number?_plus (digits : List Char) : number? ('+' :: digits) = ofDigits? digits := rfl

theorem number?_of_ne_plus {text : List Char} (h : text.head? ≠ some '+') :
    number? text = ofDigits? text := by
  cases text with
  | nil => rfl
  | cons c text =>
    have hc : c ≠ '+' := fun he => h (congrArg some he)
    unfold number?
    split
    · rename_i heq
      exact absurd (List.cons.inj heq).1 hc
    · rfl

theorem number?_eq_some_iff {text : List Char} {n : PageNumber} :
    number? text = some n ↔ ∃ sign digits, text = sign ++ digits ∧ (sign = [] ∨ sign = ['+']) ∧
      digits ≠ [] ∧ (∀ d ∈ digits, d.isDigit = true) ∧ Nat.ofDigitChars 10 digits 0 = n.toNat := by
  constructor
  · intro h
    by_cases hplus : text.head? = some '+'
    · obtain ⟨digits, rfl⟩ := List.head?_eq_some_iff.1 hplus
      rw [number?_plus] at h
      exact ⟨['+'], digits, rfl, .inr rfl, ofDigits?_eq_some_iff.1 h⟩
    · rw [number?_of_ne_plus hplus] at h
      exact ⟨[], text, rfl, .inl rfl, ofDigits?_eq_some_iff.1 h⟩
  · rintro ⟨sign, digits, rfl, hsign, hdigits⟩
    rcases hsign with rfl | rfl
    · have hplus : digits.head? ≠ some '+' := by
        intro h
        have := hdigits.2.1 '+' (List.mem_of_mem_head? h)
        revert this
        decide
      rw [List.nil_append, number?_of_ne_plus hplus]
      exact ofDigits?_eq_some_iff.2 hdigits
    · rw [List.singleton_append, number?_plus]
      exact ofDigits?_eq_some_iff.2 hdigits

theorem page?_eq_some_iff {key : String} {n : PageNumber} :
    page? key = some n ↔ Denotes key n :=
  number?_eq_some_iff

instance (key : String) (n : PageNumber) : Decidable (Denotes key n) :=
  decidable_of_iff (page? key = some n) page?_eq_some_iff

/-- A key denotes one page at most. -/
theorem Denotes.unique {key : String} {m n : PageNumber} (hm : Denotes key m)
    (hn : Denotes key n) : m = n :=
  Option.some.inj ((page?_eq_some_iff.2 hm).symm.trans (page?_eq_some_iff.2 hn))

end Folio.Reply
