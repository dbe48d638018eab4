import Folio.Font.UnicodeMap.Reader
import Folio.Proofs.Digits
import Mathlib.Data.List.Basic
import Mathlib.Data.List.TakeDrop
import Mathlib.Data.List.TakeWhile
import Mathlib.Tactic.IntervalCases

/-!
# Written numbers

Numbers that are written in digits are read back: decimal ones (`Pdf.readNatural_toDigits`) and
units of 16 bits, which take four hexadecimal digits each (`UnicodeMap.readUnits_unitsText`). The
units of a character lead back to it (`Text.Utf16.decode?_units`).
-/

set_option autoImplicit false

namespace Folio

/-! ## Units of characters -/

namespace Text.Utf16

theorem units_lt (c : Char) : ∀ unit ∈ units c, unit < 0x10000 := by
  have hlt : c.toNat < 0x110000 := by
    rcases c.valid with h | h
    · exact Nat.lt_trans h (by decide)
    · exact h.2
  unfold units
  split
  · rename_i h
    simpa using h
  · simp only [List.mem_cons, List.not_mem_nil, or_false, forall_eq_or_imp, forall_eq]
    omega

theorem decode?_units (c : Char) : decode? (units c) = some [c] := by
  have hvalid : c.toNat < 0xD800 ∨ 0xDFFF < c.toNat ∧ c.toNat < 0x110000 := c.valid
  unfold units
  split
  · have hhigh : isHighSurrogate c.toNat = false := by
      simp [isHighSurrogate]
      omega
    have hlow : isLowSurrogate c.toNat = false := by
      simp [isLowSurrogate]
      omega
    simp [decode?, decodePartly, ofUnit?, hhigh, hlow]
  · rename_i h
    have hhigh : isHighSurrogate (0xD800 + (c.toNat - 0x10000) / 0x400) = true := by
      simp [isHighSurrogate]
      omega
    have hlow : isLowSurrogate (0xDC00 + (c.toNat - 0x10000) % 0x400) = true := by
      simp [isLowSurrogate]
      omega
    have hjoin : joinSurrogates (0xD800 + (c.toNat - 0x10000) / 0x400)
        (0xDC00 + (c.toNat - 0x10000) % 0x400) = c := by
      have hsame : 0x10000 + (0xD800 + (c.toNat - 0x10000) / 0x400 - 0xD800) * 0x400 +
          (0xDC00 + (c.toNat - 0x10000) % 0x400 - 0xDC00) = c.toNat := by omega
      rw [joinSurrogates, hsame, Char.ofNat_toNat]
    simp [decode?, decodePartly, hhigh, hlow, hjoin]

theorem units_ne_nil (c : Char) : units c ≠ [] := by
  unfold units
  split <;> exact List.cons_ne_nil _ _

end Text.Utf16

/-! ## Decimal digits -/

namespace Pdf

@[simp] theorem asciiBytes_append (a b : List Char) :
    asciiBytes (a ++ b) = asciiBytes a ++ asciiBytes b := List.map_append

theorem asciiBytes_cons (c : Char) (cs : List Char) :
    asciiBytes (c :: cs) = UInt8.ofNat c.toNat :: asciiBytes cs := rfl

theorem decimalByte_spec {c : Char} (h : c.isDigit = true) :
    isDigit (UInt8.ofNat c.toNat) = true ∧ (UInt8.ofNat c.toNat).toNat = c.toNat ∧
      isSpace (UInt8.ofNat c.toNat) = false := by
  obtain ⟨hlow, hhigh⟩ : 48 ≤ c.toNat ∧ c.toNat ≤ 57 := by
    simpa [Char.isDigit, UInt32.le_iff_toNat_le] using h
  generalize c.toNat = n at hlow hhigh
  interval_cases n <;> decide

theorem isDigit_toDigits (n : ℕ) :
    ∀ byte ∈ asciiBytes (Nat.toDigits 10 n), isDigit byte = true := by
  intro byte hmem
  obtain ⟨c, hc, rfl⟩ := List.mem_map.1 hmem
  exact (decimalByte_spec (toDigits_isDigit hc)).1

/-- A number that is written in digits is read back. -/
theorem readNatural_toDigits (n : ℕ) :
    readNatural (asciiBytes (Nat.toDigits 10 n)) = some (n, []) := by
  have hdigits := isDigit_toDigits n
  have hspan : (asciiBytes (Nat.toDigits 10 n)).span isDigit =
      (asciiBytes (Nat.toDigits 10 n), []) := by
    rw [List.span_eq_takeWhile_dropWhile, List.takeWhile_eq_self_iff.2 hdigits,
      List.dropWhile_eq_nil_iff.2 hdigits]
  have hvalue : (asciiBytes (Nat.toDigits 10 n)).foldl
      (fun n digit => n * 10 + (digit.toNat - 0x30)) 0 = n := by
    calc (asciiBytes (Nat.toDigits 10 n)).foldl (fun n digit => n * 10 + (digit.toNat - 0x30)) 0
      _ = Nat.ofDigitChars 10 (Nat.toDigits 10 n) 0 := by
        rw [asciiBytes, List.foldl_map, Nat.ofDigitChars_eq_foldl]
        refine List.foldl_ext _ _ _ fun value c hc => ?_
        rw [(decimalByte_spec (toDigits_isDigit hc)).2.1, Nat.mul_comm]
        rfl
      _ = n := Nat.ofDigitChars_ten_toDigits
  obtain ⟨digit, digits, hcons⟩ := List.exists_cons_of_ne_nil
    (l := asciiBytes (Nat.toDigits 10 n)) (by simp [asciiBytes, Nat.toDigits_ne_nil])
  rw [readNatural, hspan, hcons]
  simp only
  rw [← hcons, hvalue]

end Pdf

/-! ## Hexadecimal digits -/

theorem Text.hexUpper_succ {width : ℕ} (hw : 0 < width) (n : ℕ) :
    hexUpper (width + 1) n = hexUpper width (n / 16) ++ [(n % 16).digitChar.toUpper] := by
  have hlast : n % 16 < 16 := Nat.mod_lt n (by decide)
  unfold hexUpper
  by_cases hn : n < 16
  · have hzero : n / 16 = 0 := Nat.div_eq_of_lt hn
    obtain ⟨width, rfl⟩ := Nat.exists_eq_succ_of_ne_zero (Nat.ne_of_gt hw)
    rw [hzero, Nat.mod_eq_of_lt hn, Nat.toDigits_of_lt_base hn, Nat.toDigits_zero]
    simp [List.replicate_succ']
  · have hdigits : Nat.toDigits 16 n = Nat.toDigits 16 (n / 16) ++ [(n % 16).digitChar] := by
      rw [← Nat.toDigits_of_lt_base hlast,
        Nat.toDigits_append_toDigits (by decide) (by omega) hlast, Nat.div_add_mod]
    simp [hdigits]

namespace UnicodeMap

open Pdf

/-- The byte of a digit. -/
def hexByte (k : ℕ) : UInt8 := UInt8.ofNat k.digitChar.toUpper.toNat

theorem hexByte_spec {k : ℕ} (h : k < 16) :
    hexValue? (hexByte k) = some k ∧ hexByte k ≠ 0x3E ∧ isSpace (hexByte k) = false := by
  interval_cases k <;> decide

theorem asciiBytes_hexUpper {n : ℕ} (h : n < 0x10000) :
    asciiBytes (Text.hexUpper 4 n) =
      [hexByte (n / 4096), hexByte (n / 256 % 16), hexByte (n / 16 % 16),
        hexByte (n % 16)] := by
  have hfirst : Text.hexUpper 1 (n / 4096) = [(n / 4096).digitChar.toUpper] := by
    rw [Text.hexUpper, Nat.toDigits_of_lt_base (by omega)]
    rfl
  rw [Text.hexUpper_succ (by decide), Text.hexUpper_succ (by decide),
    Text.hexUpper_succ (by decide), Nat.div_div_eq_div_mul, Nat.div_div_eq_div_mul,
    Nat.div_div_eq_div_mul, hfirst]
  rfl

theorem readUnitsFrom_unit {n : ℕ} (h : n < 0x10000) (rest : Bytes) :
    readUnitsFrom (asciiBytes (Text.hexUpper 4 n) ++ rest) =
      (readUnitsFrom rest).map fun (units, rest) => (n :: units, rest) := by
  obtain ⟨hvalue, hne, -⟩ := hexByte_spec (k := n / 4096) (by omega)
  have hvalue₂ := (hexByte_spec (k := n / 256 % 16) (by omega)).1
  have hvalue₁ := (hexByte_spec (k := n / 16 % 16) (by omega)).1
  have hvalue₀ := (hexByte_spec (k := n % 16) (by omega)).1
  have hunit : ((n / 4096 * 16 + n / 256 % 16) * 16 + n / 16 % 16) * 16 + n % 16 = n := by omega
  rw [asciiBytes_hexUpper h]
  simp only [List.cons_append, List.nil_append]
  rw [readUnitsFrom]
  · simp only [hvalue, hvalue₂, hvalue₁, hvalue₀, Option.bind_eq_bind, Option.bind_some, hunit]
    cases readUnitsFrom rest <;> rfl
  · exact hne

theorem readUnitsFrom_units {units : List ℕ} (h : ∀ unit ∈ units, unit < 0x10000) (rest : Bytes) :
    readUnitsFrom (asciiBytes (units.flatMap (Text.hexUpper 4)) ++ 0x3E :: rest) =
      some (units, rest) := by
  induction units with
  | nil => rfl
  | cons unit units ih =>
    obtain ⟨hunit, hunits⟩ := List.forall_mem_cons.1 h
    rw [List.flatMap_cons, asciiBytes_append, List.append_assoc, readUnitsFrom_unit hunit,
      ih hunits]
    rfl

/-- A string of units, as it is written. -/
def unitsText (units : List ℕ) : List Char := '<' :: units.flatMap (Text.hexUpper 4) ++ ['>']

section
variable {units : List ℕ} (h : ∀ unit ∈ units, unit < 0x10000)
include h

theorem readUnits_unitsText (hne : units ≠ []) :
    readUnits (asciiBytes (unitsText units)) = some (units, []) := by
  have hbytes : asciiBytes (unitsText units) =
      0x3C :: (asciiBytes (units.flatMap (Text.hexUpper 4)) ++ [0x3E]) := by
    rw [unitsText, List.cons_append, asciiBytes_cons, asciiBytes_append]
    rfl
  rw [hbytes, readUnits, readUnitsFrom_units h]
  cases units with
  | nil => exact absurd rfl hne
  | cons => rfl

theorem isSpace_unitsText : ∀ byte ∈ asciiBytes (unitsText units), isSpace byte = false := by
  have hunits : ∀ byte ∈ asciiBytes (units.flatMap (Text.hexUpper 4)), isSpace byte = false := by
    intro byte hbyte
    obtain ⟨c, hc, rfl⟩ := List.mem_map.1 hbyte
    obtain ⟨unit, hunit, hdigit⟩ := List.mem_flatMap.1 hc
    have hmem : UInt8.ofNat c.toNat ∈ asciiBytes (Text.hexUpper 4 unit) :=
      List.mem_map_of_mem hdigit
    rw [asciiBytes_hexUpper (h unit hunit)] at hmem
    have hlt := h unit hunit
    simp only [List.mem_cons, List.not_mem_nil, or_false] at hmem
    rcases hmem with hmem | hmem | hmem | hmem <;> rw [hmem] <;>
      exact (hexByte_spec (by omega)).2.2
  intro byte hbyte
  rw [unitsText, asciiBytes_append, List.mem_append] at hbyte
  rcases hbyte with hbyte | hbyte
  · rcases List.mem_cons.1 hbyte with rfl | hbyte
    · decide
    · exact hunits byte hbyte
  · rw [List.mem_singleton.1 hbyte]
    decide

end

end UnicodeMap

end Folio
