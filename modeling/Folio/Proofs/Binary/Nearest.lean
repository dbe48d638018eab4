import Mathlib

/-!
# Rounding to 24 bits

Numbers that are not negative are rounded to multiples of a power of two, the grid, which is so fine
that 24 bits of a number are kept, but not finer than `2 ^ (-149)`. The nearest multiple is taken,
of two that are as near the even one. Rounding keeps the order of numbers (`rounded_mono`).
-/

set_option autoImplicit false

namespace Folio.Binary32

/-! ## The nearest integer -/

/-- The integer that is nearest to a number; a half goes to the even neighbour. -/
def nearestEven (x : ℚ) : ℕ :=
  if x - ⌊x⌋₊ < 1 / 2 then ⌊x⌋₊
  else if 1 / 2 < x - ⌊x⌋₊ then ⌊x⌋₊ + 1
  else ⌊x⌋₊ + ⌊x⌋₊ % 2

theorem floor_le_nearestEven (x : ℚ) : ⌊x⌋₊ ≤ nearestEven x := by
  unfold nearestEven
  split_ifs <;> omega

theorem nearestEven_le_floor_succ (x : ℚ) : nearestEven x ≤ ⌊x⌋₊ + 1 := by
  unfold nearestEven
  split_ifs <;> omega

theorem nearestEven_natCast (n : ℕ) : nearestEven n = n := by
  simp [nearestEven]

theorem nearestEven_mono {x y : ℚ} (h : x ≤ y) : nearestEven x ≤ nearestEven y := by
  rcases (Nat.floor_mono h).lt_or_eq with hlt | heq
  · exact (nearestEven_le_floor_succ x).trans (hlt.trans_le (floor_le_nearestEven y))
  · have hfract : x - ⌊x⌋₊ ≤ y - ⌊y⌋₊ := by rw [heq]; linarith
    unfold nearestEven
    rw [heq] at hfract ⊢
    -- The larger fraction is never the one that goes down farther.
    split_ifs <;> first | omega | linarith

/-! ## The grid -/

/-- The exponent of the power of two whose multiples a number is rounded to. -/
def grid (x : ℚ) : ℤ := max (Int.log 2 x - 23) (-149)

theorem grid_mono {x y : ℚ} (hx : 0 < x) (h : x ≤ y) : grid x ≤ grid y :=
  max_le_max_right _ (sub_le_sub_right (Int.log_mono_right hx h) 23)

theorem two_zpow_pos (e : ℤ) : (0 : ℚ) < 2 ^ e := zpow_pos two_pos e

theorem div_grid_lt (x : ℚ) : x / 2 ^ grid x < 2 ^ 24 := by
  have hlog : x < 2 ^ (Int.log 2 x + 1) := Int.lt_zpow_succ_log_self one_lt_two x
  have hgrid : Int.log 2 x + 1 ≤ 24 + grid x := by
    have := le_max_left (Int.log 2 x - 23) (-149)
    unfold grid
    omega
  rw [div_lt_iff₀ (two_zpow_pos _), ← zpow_natCast, ← zpow_add₀ two_ne_zero]
  exact hlog.trans_le (zpow_le_zpow_right₀ one_le_two hgrid)

/-- Above the finest grid, numbers have all of the 24 bits. -/
theorem le_div_grid {x : ℚ} (hx : 0 < x) (h : -149 < grid x) : 2 ^ 23 ≤ x / 2 ^ grid x := by
  have hgrid : grid x = Int.log 2 x - 23 := by
    unfold grid at h ⊢
    omega
  have hlog : (2 : ℚ) ^ Int.log 2 x ≤ x := Int.zpow_log_le_self one_lt_two hx
  rw [le_div_iff₀ (two_zpow_pos _), ← zpow_natCast, ← zpow_add₀ two_ne_zero, hgrid]
  simpa using hlog

theorem nearestEven_div_grid_le (x : ℚ) : nearestEven (x / 2 ^ grid x) ≤ 2 ^ 24 := by
  have h := nearestEven_mono (div_grid_lt x).le
  have hpow : nearestEven (2 ^ 24) = 2 ^ 24 := by
    exact_mod_cast nearestEven_natCast (2 ^ 24)
  rwa [hpow] at h

theorem le_nearestEven_div_grid {x : ℚ} (hx : 0 < x) (h : -149 < grid x) :
    2 ^ 23 ≤ nearestEven (x / 2 ^ grid x) := by
  have h := nearestEven_mono (le_div_grid hx h)
  have hpow : nearestEven (2 ^ 23) = 2 ^ 23 := by
    exact_mod_cast nearestEven_natCast (2 ^ 23)
  rwa [hpow] at h

/-! ## Rounding -/

/-- The nearest multiple of the grid. -/
def rounded (x : ℚ) : ℚ := nearestEven (x / 2 ^ grid x) * 2 ^ grid x

theorem rounded_nonneg (x : ℚ) : 0 ≤ rounded x :=
  mul_nonneg (Nat.cast_nonneg _) (two_zpow_pos _).le

@[simp] theorem rounded_zero : rounded 0 = 0 := by
  have h : nearestEven 0 = 0 := by exact_mod_cast nearestEven_natCast 0
  simp [rounded, h]

theorem rounded_le_two_zpow (x : ℚ) : rounded x ≤ 2 ^ (24 + grid x) := by
  have hle : (nearestEven (x / 2 ^ grid x) : ℚ) ≤ 2 ^ 24 := by
    exact_mod_cast nearestEven_div_grid_le x
  rw [rounded, zpow_add₀ two_ne_zero]
  exact mul_le_mul_of_nonneg_right hle (two_zpow_pos _).le

/-- Nothing is rounded beyond a power of two. -/
theorem rounded_le_of_lt {x : ℚ} {e : ℤ} (hx : 0 ≤ x) (he : -125 ≤ e) (h : x < 2 ^ e) :
    rounded x ≤ 2 ^ e := by
  rcases hx.eq_or_lt with rfl | hx
  · rw [rounded_zero]
    exact (two_zpow_pos e).le
  · have hlog : Int.log 2 x < e := (Int.lt_zpow_iff_log_lt one_lt_two hx).1 h
    refine (rounded_le_two_zpow x).trans (zpow_le_zpow_right₀ one_le_two ?_)
    unfold grid
    omega

/-- Where the grid gets coarser, a power of two lies between what the numbers are rounded to. -/
theorem rounded_mono {x y : ℚ} (hx : 0 ≤ x) (h : x ≤ y) : rounded x ≤ rounded y := by
  rcases hx.eq_or_lt with rfl | hx
  · rw [rounded_zero]
    exact rounded_nonneg y
  rcases (grid_mono hx h).eq_or_lt with heq | hlt
  · have hdiv : x / 2 ^ grid x ≤ y / 2 ^ grid y := by
      rw [heq]
      exact div_le_div_of_nonneg_right h (two_zpow_pos _).le
    rw [rounded, rounded, ← heq] at *
    exact mul_le_mul_of_nonneg_right (Nat.cast_le.2 (nearestEven_mono hdiv)) (two_zpow_pos _).le
  · have hfine : -149 < grid y := (le_max_right _ _).trans_lt hlt
    have hge : (2 ^ 23 : ℚ) ≤ nearestEven (y / 2 ^ grid y) := by
      exact_mod_cast le_nearestEven_div_grid (hx.trans_le h) hfine
    calc rounded x
      _ ≤ 2 ^ (24 + grid x) := rounded_le_two_zpow x
      _ ≤ 2 ^ (23 + grid y) := zpow_le_zpow_right₀ one_le_two (by omega)
      _ = 2 ^ 23 * 2 ^ grid y := by rw [zpow_add₀ two_ne_zero]; norm_num
      _ ≤ rounded y := mul_le_mul_of_nonneg_right hge (two_zpow_pos _).le

end Folio.Binary32
