import Folio.Number.Binary
import Folio.Proofs.Binary.Magnitude

/-!
# Rounded operations

Conversions, products and quotients of numbers that are not negative are the exact results rounded
(`rounds_ofInt`, `rounds_mul`, `rounds_div`); what is too large becomes infinite. As rounding keeps
the order of numbers, so do they (`Rounds.le`).
-/

set_option autoImplicit false

namespace Folio.Binary32

open Float.Model (Format totalExponent UnpackedFloat)
open Float.Model.UnpackedFloat

/-- The number that an exact result is rounded to. -/
structure Rounds (x : Float32) (v : ℚ) : Prop where
  finite : rounded v < 2 ^ 128 → Denotes x.toModel.unpack (rounded v)
  overflow : 2 ^ 128 ≤ rounded v → x.toModel.unpack = .infinity .positive

theorem rounds_pack {a : UnpackedFloat} {v : ℚ} (h : Denotes a (rounded v)) :
    Rounds (.ofModel (.pack a)) v where
  finite hlt := by
    have hsame := h.unpack_pack.1 hlt
    rwa [← hsame] at h
  overflow hle := h.unpack_pack.2 hle

theorem rounds_zero (sign : Sign) : Rounds (.ofModel (.pack (.zero sign))) 0 :=
  rounds_pack (by rw [rounded_zero]; exact .zero sign)

/-- The larger of two exact results is not rounded to less. -/
theorem Rounds.le {x y : Float32} {v w : ℚ} (hx : Rounds x v) (hy : Rounds y w) (hv : 0 ≤ v)
    (h : v ≤ w) : x ≤ y := by
  have hmono := rounded_mono hv h
  rw [le_iff_unpack]
  rcases lt_or_ge (rounded w) (2 ^ 128) with hw | hw
  · exact ((hx.finite (hmono.trans_lt hw)).le_iff (hy.finite hw)).2 hmono
  · rw [hy.overflow hw]
    rcases lt_or_ge (rounded v) (2 ^ 128) with hv | hv
    · exact (hx.finite hv).le_infinity
    · rw [hx.overflow hv]
      rfl

/-! ## Exact results -/

theorem le_grid_of_le {e : ℤ} {x : ℚ} (hx : 0 < x) (h : (2 : ℚ) ^ (e + 23) ≤ x) : e ≤ grid x := by
  have hlog := (Int.zpow_le_iff_le_log one_lt_two hx).1 (by rwa [Nat.cast_ofNat])
  unfold grid
  omega

theorem le_grid_of_le_min {e : ℤ} (h : e ≤ -149) (x : ℚ) : e ≤ grid x :=
  h.trans (le_max_right _ _)

theorem rounds_ofInt (n : ℕ) : Rounds (ofInt n) n := by
  by_cases hn : n = 0
  · subst hn
    exact_mod_cast rounds_zero .positive
  have hpos : (0 : ℚ) < n := Nat.cast_pos.2 (Nat.pos_of_ne_zero hn)
  have htarget : Format.binary32.targetExponent (totalExponent n 0) = grid n := by
    rw [targetExponent_eq, totalExponent, grid, Int.log_natCast, ← Nat.log2_eq_log_two]
    congr 1
    ring
  have hround : UnpackedFloat.ofInt .binary32 n =
      roundWithAccuracy .binary32 .positive (n <<< (0 - grid n).toNat) (0 - (0 - grid n).toNat)
        .exact := by
    have hsign : compare (n : ℤ) 0 = .gt := Int.compare_eq_gt.2 (by omega)
    simp only [UnpackedFloat.ofInt, UnpackedFloat.normalize, hsign, Int.toNat_natCast,
      UnpackedFloat.round, decreaseExponent, htarget]
  rw [ofInt, hround]
  refine rounds_pack (denotes_roundWithAccuracy ?_ hpos (by omega))
  have hexact : (n : ℚ) / 2 ^ (0 - ((0 - grid n).toNat : ℤ)) = (n <<< (0 - grid n).toNat : ℕ) := by
    rw [zero_sub, zpow_neg, zpow_natCast, div_inv_eq_mul, Nat.shiftLeft_eq]
    push_cast
    rfl
  rw [hexact]
  exact keeps_natCast _

section
variable {x y : Float32} {v w : ℚ}

theorem rounds_mul (hx : Denotes x.toModel.unpack v) (hy : Denotes y.toModel.unpack w) :
    Rounds (x * y) (v * w) := by
  have hmul : x * y =
    .ofModel (.pack (UnpackedFloat.mul .binary32 x.toModel.unpack y.toModel.unpack)) := rfl
  rw [hmul]
  generalize x.toModel.unpack = a, y.toModel.unpack = b at hx hy ⊢
  cases hx with
  | zero sign =>
    rw [zero_mul]
    cases hy <;> exact rounds_zero _
  | @finite m d hm hmlt hmle hmnormal =>
    cases hy with
    | zero sign =>
      rw [mul_zero]
      exact rounds_zero _
    | @finite n e hn hnlt hnle hnnormal =>
      have hproduct : (m * 2 ^ d * (n * 2 ^ e) : ℚ) = (m * n : ℕ) * 2 ^ (d + e) := by
        rw [zpow_add₀ two_ne_zero]
        push_cast
        ring
      have hpos : (0 : ℚ) < (m * n : ℕ) * 2 ^ (d + e) := mul_zpow_pos (Nat.mul_pos hm hn) _
      rw [hproduct]
      refine rounds_pack (denotes_roundWithAccuracy ?_ hpos ?_)
      · rw [mul_div_cancel_right₀ _ (two_zpow_pos _).ne']
        exact keeps_natCast _
      · by_cases hmin : d = -149 ∧ e = -149
        · exact le_grid_of_le_min (by omega) _
        · have hlong : 2 ^ 23 ≤ m * n := by
            rcases hmnormal with h | h
            · exact h.trans (Nat.le_mul_of_pos_right m hn)
            · rcases hnnormal with h' | h'
              · exact h'.trans (Nat.le_mul_of_pos_left n hm)
              · exact absurd ⟨h, h'⟩ hmin
          exact le_grid_of_le hpos (le_mul_zpow hlong _)

/-- A dividend that is shifted to the exponent `t` has the integral part of the quotient there. -/
theorem div_zpow_eq (m n : ℕ) {d e t : ℤ} (ht : t ≤ d - e) :
    (m * 2 ^ d / (n * 2 ^ e) / 2 ^ t : ℚ) = (m <<< (d - e - t).toNat : ℕ) / n := by
  have hshift : (2 ^ (d - e - t).toNat : ℚ) = 2 ^ d / 2 ^ e / 2 ^ t := by
    rw [← zpow_natCast, Int.toNat_of_nonneg (by omega), zpow_sub₀ two_ne_zero,
      zpow_sub₀ two_ne_zero]
  rw [Nat.shiftLeft_eq]
  push_cast
  rw [hshift]
  field_simp

/-- The exponent that a quotient is computed at keeps enough of its bits. -/
theorem target_le_grid_div {m n : ℕ} (hm : 0 < m) (hn : 0 < n) (d e : ℤ) :
    Format.binary32.targetExponent (totalExponent m d - totalExponent n e) ≤
      grid (m * 2 ^ d / (n * 2 ^ e)) := by
  have hdividend : (2 : ℚ) ^ (m.log2 + d) ≤ m * 2 ^ d := by
    rw [zpow_add₀ two_ne_zero, zpow_natCast]
    have hlow : (2 ^ m.log2 : ℚ) ≤ m := by exact_mod_cast Nat.log2_self_le hm.ne'
    exact mul_le_mul_of_nonneg_right hlow (two_zpow_pos d).le
  have hdivisor : (n * 2 ^ e : ℚ) ≤ 2 ^ (n.log2 + 1 + e) := by
    rw [zpow_add₀ two_ne_zero]
    have hhigh : (n : ℚ) ≤ 2 ^ (n.log2 + 1 : ℤ) := by
      exact_mod_cast (Nat.lt_log2_self (n := n)).le
    exact mul_le_mul_of_nonneg_right hhigh (two_zpow_pos e).le
  have hquotient : (2 : ℚ) ^ (m.log2 + d - (n.log2 + 1 + e)) ≤ m * 2 ^ d / (n * 2 ^ e) := by
    rw [zpow_sub₀ two_ne_zero]
    exact div_le_div₀ (mul_zpow_pos hm d).le hdividend (mul_zpow_pos hn e) hdivisor
  rw [targetExponent_eq, totalExponent, totalExponent]
  refine max_le ?_ (le_max_right _ _)
  refine le_grid_of_le ((two_zpow_pos _).trans_le hquotient) (le_of_eq_of_le ?_ hquotient)
  congr 1
  ring

theorem rounds_div (hx : Denotes x.toModel.unpack v) (hy : Denotes y.toModel.unpack w)
    (hw : 0 < w) : Rounds (x / y) (v / w) := by
  have hdiv : x / y =
    .ofModel (.pack (UnpackedFloat.div .binary32 x.toModel.unpack y.toModel.unpack)) := rfl
  rw [hdiv]
  generalize x.toModel.unpack = a, y.toModel.unpack = b at hx hy ⊢
  cases hy with
  | zero => exact absurd hw (lt_irrefl 0)
  | @finite n e hn hnlt hnle hnnormal =>
    cases hx with
    | zero sign =>
      rw [zero_div]
      exact rounds_zero _
    | @finite m d hm hmlt hmle hmnormal =>
      have hpos : (0 : ℚ) < m * 2 ^ d / (n * 2 ^ e) := div_pos (mul_zpow_pos hm d) hw
      refine rounds_pack (denotes_roundWithAccuracy ?_ hpos ?_)
      · have hexact := keeps_div (m <<< (d - e - min (d - e) (Format.binary32.targetExponent
          (totalExponent m d - totalExponent n e))).toNat) hn
        rwa [← div_zpow_eq m n (min_le_left _ _)] at hexact
      · exact (min_le_right _ _).trans (target_le_grid_div hm hn d e)

end

end Folio.Binary32
