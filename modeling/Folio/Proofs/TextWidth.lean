import Folio.Layout.Column
import Folio.Proofs.Binary.Operations
import Folio.Proofs.Cutting

/-!
# The width of texts

A text that is measured has the sum of its thousandths for its width as long as the sum is a machine
word; the program panics where it is not (`Column.width_eq`). Measuring rounds three times: the
number of thousandths, its quotient and the product with the font size. As no rounding changes the
order of numbers, a part of a text is not wider than the text (`Column.inherited_holds`).
-/

set_option autoImplicit false

namespace Folio

/-! ## Counting thousandths -/

/-- The width of a text in thousandths of the font size, without a bound. -/
def thousandths (charWidth : Char → UInt16) (text : List Char) : ℕ :=
  (text.map fun c => (charWidth c).toNat).sum

section
variable (charWidth : Char → UInt16)

theorem thousandths_cons (c : Char) (cs : List Char) :
    thousandths charWidth (c :: cs) = (charWidth c).toNat + thousandths charWidth cs := rfl

theorem thousandths_append (a b : List Char) :
    thousandths charWidth (a ++ b) = thousandths charWidth a + thousandths charWidth b := by
  rw [thousandths, List.map_append, List.sum_append, ← thousandths, ← thousandths]

theorem thousandths_replicate (n : ℕ) (c : Char) :
    thousandths charWidth (List.replicate n c) = n * (charWidth c).toNat := by
  rw [thousandths, List.map_replicate, List.sum_replicate, smul_eq_mul]

theorem thousandths_le_of_part {part text : List Char} (h : part <:+: text) :
    thousandths charWidth part ≤ thousandths charWidth text :=
  (h.sublist.map _).sum_le_sum fun _ _ => Nat.zero_le _

theorem foldlM_addUnits (start : UInt32) (text : List Char) :
    text.foldlM (fun sum c => addUnits sum (charWidth c).toUInt32) start =
      if start.toNat + thousandths charWidth text < 2 ^ 32 then
        .ok (UInt32.ofNat (start.toNat + thousandths charWidth text))
      else .error .overflow := by
  induction text generalizing start with
  | nil =>
    have hlt : start.toNat + thousandths charWidth [] < 2 ^ 32 := start.toNat_lt
    rw [if_pos hlt]
    exact congrArg Except.ok (UInt32.ofNat_toNat).symm
  | cons c cs ih =>
    have hsize : UInt32.size = 2 ^ 32 := rfl
    rw [List.foldlM_cons, addUnits, hsize, thousandths_cons, ← Nat.add_assoc,
      UInt16.toNat_toUInt32]
    by_cases hsum : start.toNat + (charWidth c).toNat < 2 ^ 32
    · have hadd : (start + (charWidth c).toUInt32).toNat = start.toNat + (charWidth c).toNat := by
        rw [UInt32.toNat_add, UInt16.toNat_toUInt32, Nat.mod_eq_of_lt hsum]
      rw [if_pos hsum]
      exact (ih _).trans (by rw [hadd])
    · rw [if_neg hsum, if_neg (by omega)]
      rfl

/-- The number of thousandths is counted as it is, if it can be counted at all. -/
theorem textUnits_eq (text : List Char) :
    textUnits charWidth text =
      if thousandths charWidth text < 2 ^ 32 then
        .ok (UInt32.ofNat (thousandths charWidth text))
      else .error .overflow := by
  rw [textUnits, foldlM_addUnits, UInt32.toNat_zero, Nat.zero_add]

end

/-! ## Scaling -/

namespace Binary32

theorem denotes_thousand : Denotes (1000 : Float32).toModel.unpack 1000 := by
  have hvalue : (1000 : ℚ) = (16384000 : ℕ) * 2 ^ (-14 : ℤ) := by norm_num
  rw [hvalue]
  exact .finite (by decide) (by decide) (by decide) (.inl (by decide))

theorem denotes_ofInt {n : ℕ} (h : n < 2 ^ 32) :
    Denotes (ofInt n).toModel.unpack (rounded n) ∧ rounded n ≤ 2 ^ 32 := by
  have hle : rounded n ≤ 2 ^ (32 : ℤ) :=
    rounded_le_of_lt (Nat.cast_nonneg n) (by decide) (by exact_mod_cast h)
  exact ⟨(rounds_ofInt n).finite (hle.trans_lt (by norm_num)), by exact_mod_cast hle⟩

/-- A thousandth of a machine word is finite. -/
theorem denotes_div_thousand {n : ℕ} (h : n < 2 ^ 32) :
    Denotes (ofInt n / 1000).toModel.unpack (rounded (rounded n / 1000)) := by
  obtain ⟨hn, hle⟩ := denotes_ofInt h
  refine (rounds_div hn denotes_thousand (by norm_num)).finite ?_
  refine (rounded_le_of_lt (e := 32) (div_nonneg hn.nonneg (by norm_num)) (by decide) ?_).trans_lt
    (by norm_num)
  rw [div_lt_iff₀ (by norm_num)]
  exact hle.trans_lt (by norm_num)

/-- A number of thousandths of a size grows with the number. -/
theorem thousandths_mul_le {size : Float32} (hsize : 0 ≤ size) (hfinite : size.isFinite) {m n : ℕ}
    (h : m ≤ n) (hn : n < 2 ^ 32) : ofInt m / 1000 * size ≤ ofInt n / 1000 * size := by
  obtain ⟨v, hv⟩ := exists_denotes hsize hfinite
  have hm := denotes_div_thousand (h.trans_lt hn)
  have hquotient : rounded (rounded m / 1000) ≤ rounded (rounded n / 1000) := by
    have hrounded := rounded_mono (Nat.cast_nonneg m) (Nat.cast_le.2 h)
    exact rounded_mono (div_nonneg (rounded_nonneg _) (by norm_num))
      (div_le_div_of_nonneg_right hrounded (by norm_num))
  exact (rounds_mul hm hv).le (rounds_mul (denotes_div_thousand hn) hv)
    (mul_nonneg hm.nonneg hv.nonneg) (mul_le_mul_of_nonneg_right hquotient hv.nonneg)

end Binary32

/-! ## Columns -/

namespace Column

variable (column : Column)

/-- The thousandths of a line can be counted. -/
def Counts (line : Line) : Prop := thousandths column.charWidth line < 2 ^ 32

instance (line : Line) : Decidable (column.Counts line) :=
  inferInstanceAs (Decidable (_ < _))

theorem counts_iff {line : Line} :
    column.Counts line ↔ thousandths column.charWidth line < 2 ^ 32 := Iff.rfl

theorem not_counts_iff {line : Line} :
    ¬ column.Counts line ↔ 2 ^ 32 ≤ thousandths column.charWidth line := not_lt

/-- The width of a line by the number of its thousandths. -/
def trueWidth (line : Line) : Float32 :=
  if line.isEmpty then 0
  else Binary32.ofInt (thousandths column.charWidth line : ℕ) / 1000 * column.fontSize

/-- Whether a line is not wider than the column. -/
def holds (line : Line) : Bool := column.trueWidth line ≤ column.maxWidth

/-- A line that is measured has its true width. -/
theorem width_eq (line : Line) :
    column.width line =
      if column.Counts line then .ok (column.trueWidth line) else .error .overflow := by
  unfold width trueWidth
  by_cases hl : line = []
  · subst hl
    rfl
  · have hfull : ¬ line.isEmpty = true := by simpa using hl
    rw [if_neg hfull, if_neg hfull, textWidth, textUnits_eq]
    by_cases hcount : column.Counts line
    · rw [if_pos (show thousandths _ line < 2 ^ 32 from hcount), if_pos hcount]
      show Except.ok _ = _
      rw [UInt32.toNat_ofNat_of_lt' hcount]
    · rw [if_neg (show ¬ thousandths _ line < 2 ^ 32 from hcount), if_neg hcount]
      rfl

theorem fits_eq (line : Line) :
    column.fits line =
      if column.Counts line then .ok (column.holds line) else .error .overflow := by
  rw [fits, width_eq]
  split <;> rfl

variable {column} {text : List Char}

theorem trueWidth_of_ne_nil {line : Line} (h : line ≠ []) :
    column.trueWidth line =
      Binary32.ofInt (thousandths column.charWidth line : ℕ) / 1000 * column.fontSize :=
  if_neg (by simpa using h)

theorem trueWidth_le_of_part {part whole : Line} (hsize : 0 ≤ column.fontSize)
    (hfinite : column.fontSize.isFinite) (hcount : column.Counts whole) (hne : part ≠ [])
    (h : part <:+: whole) : column.trueWidth part ≤ column.trueWidth whole := by
  have hwhole : whole ≠ [] := by
    rintro rfl
    exact hne (List.infix_nil.1 h)
  rw [trueWidth_of_ne_nil hne, trueWidth_of_ne_nil hwhole]
  exact Binary32.thousandths_mul_le hsize hfinite (thousandths_le_of_part _ h) hcount

/-- If the column holds a text, it holds the parts of it. -/
theorem inherited_holds (hsize : 0 ≤ column.fontSize) (hfinite : column.fontSize.isFinite)
    (hcount : column.Counts text) : Inherited (column.holds ·) text := by
  intro whole hwhole hholds part hne hpart
  have hcounts : column.Counts whole := (thousandths_le_of_part _ hwhole).trans_lt hcount
  have hwidth := trueWidth_le_of_part hsize hfinite hcounts hne hpart
  exact decide_eq_true (Binary32.le_trans hwidth (of_decide_eq_true hholds))

end Column

end Folio
