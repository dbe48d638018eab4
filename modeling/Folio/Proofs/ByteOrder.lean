import Mathlib.Tactic.ByContra
import Mathlib.Tactic.SplitIfs

/-!
# The order of texts, byte by byte

Texts are ordered by their characters, and the bytes of UTF-8 give the same order
(`bytes_le_bytes_iff`): a character with more bytes has a greater first byte, and of two characters
with equally many bytes the greater one has the greater digits in base 64.
-/

set_option autoImplicit false

namespace Folio.Text

open String

/-- The bytes of a text in UTF-8. -/
def bytes (text : String) : List UInt8 := text.toUTF8.data.toList

theorem bytes_eq_flatMap (text : String) : bytes text = text.toList.flatMap utf8EncodeChar := by
  have htext : text.toUTF8 = text.toList.utf8Encode := by
    rw [← String.toByteArray_ofList, String.ofList_toList, String.toUTF8_eq_toByteArray]
  rw [bytes, htext, List.utf8Encode, List.toList_data_toByteArray]

/-! ## One character -/

theorem digits_lt {m n : Nat} (h : m < n) :
    m / 64 < n / 64 ∨ m / 64 = n / 64 ∧ m % 64 < n % 64 := by
  omega

/-- The four digits in base 64 of the greater number are greater, compared from the first one on. -/
theorem four_digits_lt {m n : Nat} (h : m < n) :
    m / 262144 < n / 262144 ∨ m / 262144 = n / 262144 ∧ (m / 4096 % 64 < n / 4096 % 64 ∨
      m / 4096 % 64 = n / 4096 % 64 ∧ (m / 64 % 64 < n / 64 % 64 ∨
        m / 64 % 64 = n / 64 % 64 ∧ m % 64 < n % 64)) := by
  have hsecond (k : Nat) : k / 64 / 64 = k / 4096 := Nat.div_div_eq_div_mul k 64 64
  have hfirst (k : Nat) : k / 4096 / 64 = k / 262144 := Nat.div_div_eq_div_mul k 4096 64
  rcases digits_lt h with h | ⟨hthird, hlast⟩
  · rcases digits_lt h with h | ⟨hsame, hdigit⟩
    · rw [hsecond, hsecond] at h
      rcases digits_lt h with h | ⟨hsame, hdigit⟩
      · rw [hfirst, hfirst] at h
        exact .inl h
      · rw [hfirst, hfirst] at hsame
        exact .inr ⟨hsame, .inl hdigit⟩
    · rw [hsecond, hsecond] at hsame
      exact .inr ⟨by omega, .inr ⟨by omega, .inl hdigit⟩⟩
  · exact .inr ⟨by omega, .inr ⟨by omega, .inr ⟨by omega, hlast⟩⟩⟩

theorem continuation_byte (n : Nat) : (n % 64 + 128) % 256 = n % 64 + 128 := by
  omega

theorem leading_byte {n : Nat} (h : n < 0x110000) :
    (n / 262144 % 8 + 240) % 256 = n / 262144 + 240 := by
  omega

/-- The bytes of two characters differ before either ends. -/
theorem utf8EncodeChar_append_lt {c d : Char} (h : c < d) (x y : List UInt8) :
    utf8EncodeChar c ++ x < utf8EncodeChar d ++ y := by
  have hlt : c.val.toNat < d.val.toNat := h
  have hlimit : d.val.toNat < 0x110000 := by
    rcases d.valid with hd | hd
    · omega
    · exact hd.2
  have hdigits := four_digits_lt hlt
  have hleading := leading_byte hlimit
  have hleading' := leading_byte (Nat.lt_trans hlt hlimit)
  simp only [utf8EncodeChar]
  generalize c.val.toNat = m at *
  generalize d.val.toNat = n at *
  split_ifs
  all_goals
    simp only [List.cons_append, List.nil_append, List.cons_lt_cons_iff, UInt8.lt_iff_toNat_lt,
      ← UInt8.toNat_inj, UInt8.toNat_ofNat', Nat.reducePow, continuation_byte, hleading, hleading']
    omega

/-! ## Texts -/

theorem flatMap_lt_flatMap {a b : List Char} (h : a < b) :
    a.flatMap utf8EncodeChar < b.flatMap utf8EncodeChar := by
  induction a generalizing b with
  | nil =>
    cases b with
    | nil => exact absurd h (List.not_lt_nil [])
    | cons d b =>
      obtain ⟨byte, bytes, hbytes⟩ :=
        List.exists_cons_of_ne_nil (utf8EncodeChar_ne_nil (c := d))
      rw [List.flatMap_cons, hbytes]
      exact List.nil_lt_cons _ _
  | cons c a ih =>
    cases b with
    | nil => exact absurd h (List.not_lt_nil _)
    | cons d b =>
      rw [List.flatMap_cons, List.flatMap_cons]
      rcases List.cons_lt_cons_iff.1 h with hfirst | ⟨rfl, hrest⟩
      · exact utf8EncodeChar_append_lt hfirst _ _
      · exact List.append_left_lt (ih hrest)

theorem bytes_lt_bytes {a b : String} (h : a < b) : bytes a < bytes b := by
  rw [bytes_eq_flatMap, bytes_eq_flatMap]
  exact flatMap_lt_flatMap (String.lt_iff.1 h)

/-- Texts are ordered as their bytes are. -/
theorem bytes_le_bytes_iff {a b : String} : bytes a ≤ bytes b ↔ a ≤ b := by
  rw [← List.not_lt, ← String.not_lt]
  refine not_congr ⟨fun h => ?_, bytes_lt_bytes⟩
  by_contra hba
  by_cases hab : a < b
  · exact List.lt_asymm h (bytes_lt_bytes hab)
  · have hsame : a = b := String.le_antisymm (String.not_lt.1 hba) (String.not_lt.1 hab)
    rw [hsame] at h
    exact List.lt_irrefl _ h

end Folio.Text
