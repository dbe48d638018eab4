import Folio.Number.Binary

/-!
# Decimal digits

The digits that `Nat.toDigits` writes are read back to the number (`readDigits_toDigits`), so that
two numbers have different digits (`repr_injective`), and a positive number has no leading zero.
-/

set_option autoImplicit false

namespace Folio

/-- A text that goes on without a digit. -/
def NoDigit (rest : List Char) : Prop := ∀ c ∈ rest.head?, c.isDigit = false

theorem toDigits_isDigit {n : Nat} {c : Char} (h : c ∈ Nat.toDigits 10 n) : c.isDigit = true :=
  Nat.isDigit_of_mem_toDigits (by decide) (by decide) h

theorem digitChar_ne_zero {d : Nat} (h0 : 0 < d) (h : d < 10) : d.digitChar ≠ '0' := by
  intro he
  have := Nat.toNat_digitChar_of_lt_ten h
  rw [he] at this
  simp at this
  omega

/-- The first digit of a positive number is no zero. -/
theorem toDigits_pos {n : Nat} (h : 0 < n) :
    ∃ d ds, Nat.toDigits 10 n = d :: ds ∧ d ≠ '0' ∧ d.isDigit = true := by
  induction n using Nat.strongRecOn with
  | ind n ih =>
    rcases Nat.lt_or_ge n 10 with hlt | hge
    · have hd := Nat.toDigits_of_lt_base hlt
      exact ⟨_, _, hd, digitChar_ne_zero h hlt, toDigits_isDigit (hd ▸ List.mem_cons_self)⟩
    · obtain ⟨d, ds, hd, h0, hdig⟩ := ih (n / 10) (by omega) (by omega)
      refine ⟨d, ds ++ Nat.toDigits 10 (n % 10), ?_, h0, hdig⟩
      rw [← List.cons_append, ← hd,
        Nat.toDigits_append_toDigits (by decide) (by omega) (by omega), Nat.div_add_mod]

/-- Digits in front of something else are read to their number. -/
theorem readDigits_append {digits rest : List Char} (hd : ∀ c ∈ digits, c.isDigit = true)
    (hr : NoDigit rest) (value count : Nat) :
    readDigits value count (digits ++ rest) =
      (Nat.ofDigitChars 10 digits value, count + digits.length, rest) := by
  induction digits generalizing value count with
  | nil =>
    cases rest with
    | nil => rfl
    | cons c rest => simp [readDigits, hr c rfl]
  | cons c cs ih =>
    simp only [List.forall_mem_cons] at hd
    simp only [List.cons_append, readDigits, hd.1, ↓reduceIte, ih hd.2, Nat.ofDigitChars_cons,
      Nat.mul_comm 10, List.length_cons]
    congr 2
    omega

theorem readDigits_toDigits (n : Nat) :
    readDigits 0 0 (Nat.toDigits 10 n) = (n, (Nat.toDigits 10 n).length, []) := by
  have hnil : NoDigit [] := by simp [NoDigit]
  simpa using readDigits_append (fun _ => toDigits_isDigit (n := n)) hnil 0 0

theorem repr_injective {m n : Nat} (h : m.repr = n.repr) : m = n := by
  have hd : Nat.toDigits 10 m = Nat.toDigits 10 n := by
    rw [← Nat.toList_repr, h, Nat.toList_repr]
  rw [← Nat.ofDigitChars_ten_toDigits (n := m), hd, Nat.ofDigitChars_ten_toDigits]

end Folio
