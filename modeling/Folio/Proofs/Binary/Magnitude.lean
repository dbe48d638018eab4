import Folio.Proofs.Binary.Nearest

/-!
# Magnitudes

A binary number of 32 bits that is neither negative nor too large denotes a rational number. What an
operation makes of such numbers is its exact result, rounded (`denotes_roundWithAccuracy`), so that
operations keep the order of numbers.
-/

set_option autoImplicit false

namespace Folio.Binary32

open Float.Model (Format totalExponent UnpackedFloat)
open Float.Model.UnpackedFloat

/-! ## Mantissas with a remainder -/

/-- What the round bit and the sticky bit tell about the remainder behind a mantissa. -/
inductive Tells : Bool → Bool → ℚ → Prop
  | nothing : Tells false false 0
  | less {r : ℚ} (hpos : 0 < r) (hlt : r < 1 / 2) : Tells false true r
  | half : Tells true false (1 / 2)
  | more {r : ℚ} (hgt : 1 / 2 < r) (hlt : r < 1) : Tells true true r

/-- An extended mantissa is what is kept of a number. -/
structure Keeps (em : ExtendedMantissa) (x : ℚ) : Prop where
  tells : Tells em.roundBit em.stickyBit (x - em.mantissa)

theorem Tells.bounds {round sticky : Bool} {r : ℚ} (h : Tells round sticky r) : 0 ≤ r ∧ r < 1 := by
  cases h <;> constructor <;> linarith

/-- A bit in front of the remainder becomes the round bit; the round bit joins the sticky one. -/
theorem Tells.push {round sticky : Bool} {r : ℚ} (h : Tells round sticky r) (bit : Bool) :
    Tells bit (round || sticky) ((bit.toNat + r) / 2) := by
  cases bit
  case false =>
    rw [Bool.toNat_false, Nat.cast_zero, zero_add]
    cases h with
    | nothing => rw [zero_div]; exact .nothing
    | less hpos hlt => exact .less (by linarith) (by linarith)
    | half => exact .less (by norm_num) (by norm_num)
    | more hgt hlt => exact .less (by linarith) (by linarith)
  case true =>
    rw [Bool.toNat_true, Nat.cast_one]
    cases h with
    | nothing => rw [add_zero]; exact .half
    | less hpos hlt => exact .more (by linarith) (by linarith)
    | half => exact .more (by norm_num) (by norm_num)
    | more hgt hlt => exact .more (by linarith) (by linarith)

section
variable {em : ExtendedMantissa} {x : ℚ}

theorem Keeps.floor_eq (h : Keeps em x) : ⌊x⌋₊ = em.mantissa := by
  obtain ⟨hnonneg, hlt⟩ := h.tells.bounds
  have hm : (0 : ℚ) ≤ em.mantissa := Nat.cast_nonneg _
  exact (Nat.floor_eq_iff (by linarith)).2 ⟨by linarith, by linarith⟩

theorem Keeps.nearestEven_eq (h : Keeps em x) : nearestEven x = em.roundedMantissa := by
  have htells := h.tells
  rw [nearestEven, h.floor_eq]
  obtain ⟨m, round, sticky⟩ := em
  generalize x - (m : ℚ) = r at htells ⊢
  cases htells with
  | nothing => norm_num; rfl
  | less hpos hlt => rw [if_pos hlt]; rfl
  | half => norm_num; rfl
  | more hgt hlt => rw [if_neg (by linarith), if_pos hgt]; rfl

theorem Keeps.halve (h : Keeps em x) : Keeps em.shiftRightOne (x / 2) := by
  have hbit : ((em.mantissa % 2 != 0).toNat : ℚ) = (em.mantissa % 2 : ℕ) := by
    rcases Nat.mod_two_eq_zero_or_one em.mantissa with hm | hm <;> rw [hm] <;> rfl
  have hm : (em.mantissa : ℚ) = (em.mantissa % 2 : ℕ) + 2 * (em.mantissa / 2 : ℕ) := by
    exact_mod_cast (Nat.mod_add_div em.mantissa 2).symm
  have hremainder : x / 2 - em.shiftRightOne.mantissa =
      ((em.mantissa % 2 != 0).toNat + (x - em.mantissa)) / 2 := by
    rw [hbit, ExtendedMantissa.shiftRightOne]
    linarith
  exact ⟨hremainder ▸ h.tells.push _⟩

theorem Keeps.shift (h : Keeps em x) (n : ℕ) : Keeps (em >>> n) (x / 2 ^ n) := by
  induction n with
  | zero =>
    rw [pow_zero, div_one]
    exact h
  | succ n ih =>
    rw [pow_succ, ← div_div]
    exact ih.halve

theorem keeps_natCast (m : ℕ) : Keeps (.ofMantissaAndAccuracy m .exact) m :=
  ⟨by simpa [ExtendedMantissa.ofMantissaAndAccuracy] using Tells.nothing⟩

/-- A quotient is kept by its integral part and what is known about the rest. -/
theorem keeps_div (m : ℕ) {n : ℕ} (hn : 0 < n) :
    Keeps (.ofMantissaAndAccuracy (m / n) (accuracyOfFraction (m % n) n)) (m / n) := by
  have hpos : (0 : ℚ) < n := Nat.cast_pos.2 hn
  have hlt : ((m % n : ℕ) : ℚ) < n := Nat.cast_lt.2 (Nat.mod_lt m hn)
  have hremainder : (m / n : ℚ) - (m / n : ℕ) = (m % n : ℕ) / n := by
    have hm : (m : ℚ) = (m % n : ℕ) + n * (m / n : ℕ) := by
      exact_mod_cast (Nat.mod_add_div m n).symm
    field_simp
    linarith
  unfold accuracyOfFraction
  split
  · rename_i hzero
    refine ⟨?_⟩
    simpa [ExtendedMantissa.ofMantissaAndAccuracy, hremainder, hzero] using Tells.nothing
  · rename_i hne
    have hrpos : (0 : ℚ) < (m % n : ℕ) := Nat.cast_pos.2 (Nat.pos_of_ne_zero hne)
    refine ⟨?_⟩
    rcases h : compare (2 * (m % n)) n <;>
      simp only [ExtendedMantissa.ofMantissaAndAccuracy, hremainder]
    · have hhalf : (2 * (m % n : ℕ) : ℚ) < n := by exact_mod_cast Nat.compare_eq_lt.1 h
      exact .less (div_pos hrpos hpos) (by rw [div_lt_div_iff₀ hpos two_pos]; linarith)
    · have hhalf : (2 * (m % n : ℕ) : ℚ) = n := by exact_mod_cast Nat.compare_eq_eq.1 h
      have heq : ((m % n : ℕ) : ℚ) / n = 1 / 2 := by rw [← hhalf]; field_simp
      exact heq ▸ .half
    · have hhalf : (n : ℚ) < 2 * (m % n : ℕ) := by exact_mod_cast Nat.compare_eq_gt.1 h
      exact .more (by rw [div_lt_div_iff₀ two_pos hpos]; linarith) ((div_lt_one hpos).2 hlt)

end

/-! ## Numbers of the format -/

/-- An unpacked number that is not negative and has the form of the format denotes a number. -/
inductive Denotes : UnpackedFloat → ℚ → Prop
  | zero (sign : Sign) : Denotes (.zero sign) 0
  | finite {m : ℕ} {e : ℤ} (hpos : 0 < m) (hlt : m < 2 ^ 24) (hle : -149 ≤ e)
      (hnormal : 2 ^ 23 ≤ m ∨ e = -149) : Denotes (.finite .positive m e hpos) (m * 2 ^ e)

theorem targetExponent_eq (t : ℤ) : Format.binary32.targetExponent t = max (t - 24) (-149) := rfl

section
variable {m : ℕ} {e : ℤ} {accuracy : Accuracy} {x : ℚ}

theorem Keeps.floor_div_eq (h : Keeps (.ofMantissaAndAccuracy m accuracy) (x / 2 ^ e)) :
    ⌊x / 2 ^ e⌋₊ = m := by
  rw [h.floor_eq]
  rcases accuracy with _ | order
  · rfl
  · cases order <;> rfl

theorem targetExponent_eq_grid (h : Keeps (.ofMantissaAndAccuracy m accuracy) (x / 2 ^ e))
    (hx : 0 < x) (he : e ≤ grid x) :
    Format.binary32.targetExponent (totalExponent m e) = grid x := by
  have hpos := two_zpow_pos e
  have hfloor := h.floor_div_eq
  rw [Nat.floor_eq_iff (div_pos hx hpos).le, le_div_iff₀ hpos, div_lt_iff₀ hpos] at hfloor
  rw [targetExponent_eq, totalExponent]
  unfold grid at he ⊢
  by_cases hm : m = 0
  · subst hm
    have hlog : Int.log 2 x < e := by
      refine (Int.lt_zpow_iff_log_lt one_lt_two hx).1 ?_
      simpa using hfloor.2
    rw [Nat.log2_zero]
    omega
  · have hlow : (2 ^ m.log2 : ℚ) ≤ m := by exact_mod_cast Nat.log2_self_le hm
    have hhigh : (m + 1 : ℚ) ≤ 2 ^ (m.log2 + 1) := by exact_mod_cast Nat.lt_log2_self
    have hlog : Int.log 2 x = m.log2 + e := by
      refine le_antisymm (Int.lt_add_one_iff.1 ?_) ?_
      · refine (Int.lt_zpow_iff_log_lt one_lt_two hx).1 (hfloor.2.trans_le ?_)
        rw [Nat.cast_ofNat, add_right_comm, zpow_add₀ two_ne_zero]
        exact_mod_cast mul_le_mul_of_nonneg_right hhigh hpos.le
      · refine (Int.zpow_le_iff_le_log one_lt_two hx).1 (le_trans ?_ hfloor.1)
        rw [Nat.cast_ofNat, zpow_add₀ two_ne_zero]
        exact_mod_cast mul_le_mul_of_nonneg_right hlow hpos.le
    rw [hlog]
    congr 1
    ring

theorem shiftToTargetExponent_eq (h : Keeps (.ofMantissaAndAccuracy m accuracy) (x / 2 ^ e))
    (hx : 0 < x) (he : e ≤ grid x) :
    shiftToTargetExponent .binary32 m e accuracy =
      (ExtendedMantissa.ofMantissaAndAccuracy m accuracy >>> (grid x - e).toNat, grid x) := by
  rw [shiftToTargetExponent, targetExponent_eq_grid h hx he, shiftToExponent]
  congr 1
  omega

theorem shiftToTargetExponent_of_lt (hm : m < 2 ^ 24) (he : -149 ≤ e) :
    shiftToTargetExponent .binary32 m e .exact = (⟨m, false, false⟩, e) := by
  have hlog : m.log2 < 24 := by
    by_cases h : m = 0
    · subst h
      decide
    · exact (Nat.log2_lt h).2 hm
  have hshift : (Format.binary32.targetExponent (totalExponent m e) - e).toNat = 0 := by
    rw [targetExponent_eq, totalExponent]
    omega
  rw [shiftToTargetExponent, shiftToExponent, hshift]
  simp only [Nat.cast_zero, add_zero]
  rfl

/-- A mantissa that rounding has made too long is a power of two. -/
theorem shiftToTargetExponent_carry (he : -149 ≤ e) :
    shiftToTargetExponent .binary32 (2 ^ 24) e .exact = (⟨2 ^ 23, false, false⟩, e + 1) := by
  have hshift : (Format.binary32.targetExponent (totalExponent (2 ^ 24) e) - e).toNat = 1 := by
    rw [targetExponent_eq, totalExponent, Nat.log2_two_pow]
    omega
  rw [shiftToTargetExponent, shiftToExponent, hshift]
  rfl

/-- Rounding gives the nearest number of the format. -/
theorem denotes_roundWithAccuracy
    (h : Keeps (.ofMantissaAndAccuracy m accuracy) (x / 2 ^ e)) (hx : 0 < x) (he : e ≤ grid x) :
    Denotes (roundWithAccuracy .binary32 .positive m e accuracy) (rounded x) := by
  have hgrid : -149 ≤ grid x := le_max_right _ _
  have hquotient : x / 2 ^ e / 2 ^ (grid x - e).toNat = x / 2 ^ grid x := by
    rw [div_div, ← zpow_natCast, ← zpow_add₀ two_ne_zero, Int.toNat_of_nonneg (by omega)]
    congr 2
    omega
  have hmantissa := (h.shift (grid x - e).toNat).nearestEven_eq
  rw [hquotient] at hmantissa
  have hround : roundWithAccuracy .binary32 .positive m e accuracy =
      let final := shiftToTargetExponent .binary32 (nearestEven (x / 2 ^ grid x)) (grid x) .exact
      if h : final.1.mantissa = 0 then .zero .positive
      else .finite .positive final.1.mantissa final.2 (Nat.pos_of_ne_zero h) := by
    rw [roundWithAccuracy, shiftToTargetExponent_eq h hx he, hmantissa]
  rw [hround, rounded]
  have hle := nearestEven_div_grid_le x
  have hnormal := le_nearestEven_div_grid hx
  generalize nearestEven (x / 2 ^ grid x) = r at hle hnormal ⊢
  rcases hle.lt_or_eq with hlt | rfl
  · rw [shiftToTargetExponent_of_lt hlt hgrid]
    by_cases hr : r = 0
    · subst hr
      simpa using Denotes.zero .positive
    · simp only [hr, ↓reduceDIte]
      refine .finite (Nat.pos_of_ne_zero hr) hlt hgrid ?_
      rcases hgrid.eq_or_lt with heq | hfine
      · exact .inr heq.symm
      · exact .inl (hnormal hfine)
  · rw [shiftToTargetExponent_carry hgrid]
    have hvalue : ((2 ^ 24 : ℕ) : ℚ) * 2 ^ grid x = (2 ^ 23 : ℕ) * 2 ^ (grid x + 1) := by
      rw [zpow_add₀ two_ne_zero]
      norm_num
      ring
    rw [hvalue]
    exact Denotes.finite (m := 2 ^ 23) (by decide) (by decide) (by omega) (.inl le_rfl)

end

/-! ## The order of numbers -/

theorem le_iff_unpack {x y : Float32} :
    x ≤ y ↔ x.toModel.unpack.le y.toModel.unpack = true :=
  ⟨of_decide_eq_true, decide_eq_true⟩

theorem isLE_compare_parts (m n : ℕ) (d e : ℤ) :
    ((compare d e).then (compare m n)).isLE = true ↔ d < e ∨ d = e ∧ m ≤ n := by
  simp [Ordering.isLE_then_iff_or, Int.compare_eq_lt, Std.isLE_compare]

theorem isGE_compare_parts (m n : ℕ) (d e : ℤ) :
    ((compare d e).then (compare m n)).isGE = true ↔ e < d ∨ d = e ∧ n ≤ m := by
  rw [← Ordering.isLE_swap, Ordering.swap_then, ← Std.OrientedCmp.eq_swap,
    ← Std.OrientedCmp.eq_swap, isLE_compare_parts, eq_comm]

/-- Where a number stands in the order of all numbers: by its sign, its exponent and its mantissa.
One that is undefined stands nowhere. -/
def position : UnpackedFloat → Option (ℤ ×ₗ ℤ ×ₗ ℤ)
  | .notANumber => none
  | .infinity .negative => some (toLex (-2, toLex (0, 0)))
  | .finite .negative m e _ => some (toLex (-1, toLex (-e, -m)))
  | .zero _ => some (toLex (0, toLex (0, 0)))
  | .finite .positive m e _ => some (toLex (1, toLex (e, m)))
  | .infinity .positive => some (toLex (2, toLex (0, 0)))

theorem le_iff_position (a b : UnpackedFloat) :
    a.le b = true ↔ ∃ p ∈ position a, ∃ q ∈ position b, p ≤ q := by
  have hinfinite (s t : Sign) : (compare s t).isLE = true ↔ s = .negative ∨ t = .positive := by
    cases s <;> cases t <;> simp <;> rfl
  rcases a with (_ | _) | _ | (_ | _) | ⟨_ | _, m, d, hm⟩ <;>
    rcases b with (_ | _) | _ | (_ | _) | ⟨_ | _, n, e, hn⟩ <;>
    simp [position, UnpackedFloat.le, UnpackedFloat.compare, Prod.Lex.le_iff, hinfinite,
      isLE_compare_parts, isGE_compare_parts]

protected theorem le_trans {x y z : Float32} (hxy : x ≤ y) (hyz : y ≤ z) : x ≤ z := by
  rw [le_iff_unpack, le_iff_position] at *
  obtain ⟨p, hp, q, hq, hpq⟩ := hxy
  obtain ⟨q', hq', r, hr, hqr⟩ := hyz
  cases hq.symm.trans hq'
  exact ⟨p, hp, r, hr, hpq.trans hqr⟩

theorem mul_zpow_pos {m : ℕ} (hm : 0 < m) (e : ℤ) : (0 : ℚ) < m * 2 ^ e :=
  mul_pos (Nat.cast_pos.2 hm) (two_zpow_pos e)

theorem mul_zpow_lt {m : ℕ} (hm : m < 2 ^ 24) (e : ℤ) : (m : ℚ) * 2 ^ e < 2 ^ (e + 24) := by
  have hm' : (m : ℚ) < 2 ^ (24 : ℤ) := by exact_mod_cast hm
  rw [zpow_add₀ two_ne_zero, mul_comm]
  exact mul_lt_mul_of_pos_left hm' (two_zpow_pos e)

theorem le_mul_zpow {m : ℕ} (hm : 2 ^ 23 ≤ m) (e : ℤ) : (2 : ℚ) ^ (e + 23) ≤ m * 2 ^ e := by
  have hm' : (2 : ℚ) ^ (23 : ℤ) ≤ m := by exact_mod_cast hm
  rw [zpow_add₀ two_ne_zero, mul_comm]
  exact mul_le_mul_of_nonneg_right hm' (two_zpow_pos e).le

/-- Of two mantissas in the form of the format, that with the greater exponent is greater. -/
theorem mul_zpow_lt_mul_zpow {m n : ℕ} {d e : ℤ} (hm : m < 2 ^ 24) (hn : 2 ^ 23 ≤ n) (h : d < e) :
    (m : ℚ) * 2 ^ d < n * 2 ^ e :=
  calc (m : ℚ) * 2 ^ d
    _ < 2 ^ (d + 24) := mul_zpow_lt hm d
    _ ≤ 2 ^ (e + 23) := zpow_le_zpow_right₀ one_le_two (by omega)
    _ ≤ n * 2 ^ e := le_mul_zpow hn e

theorem le_finite_iff {m n : ℕ} {d e : ℤ} (hm : 0 < m) (hn : 0 < n) :
    (UnpackedFloat.finite .positive m d hm).le (.finite .positive n e hn) = true ↔
      d < e ∨ d = e ∧ m ≤ n :=
  isLE_compare_parts m n d e

theorem Denotes.nonneg {a : UnpackedFloat} {v : ℚ} (h : Denotes a v) : 0 ≤ v := by
  cases h with
  | zero => exact le_rfl
  | finite => exact mul_nonneg (Nat.cast_nonneg _) (two_zpow_pos _).le

theorem Denotes.le_infinity {a : UnpackedFloat} {v : ℚ} (h : Denotes a v) :
    a.le (.infinity .positive) = true := by
  cases h <;> rfl

theorem Denotes.le_iff {a b : UnpackedFloat} {v w : ℚ} (ha : Denotes a v) (hb : Denotes b w) :
    a.le b = true ↔ v ≤ w := by
  cases ha with
  | zero =>
    refine iff_of_true ?_ hb.nonneg
    cases hb <;> rfl
  | @finite m d hm hmlt hmle hmnormal =>
    cases hb with
    | zero =>
      have hpos := mul_zpow_pos hm d
      exact iff_of_false (by simp [UnpackedFloat.le, UnpackedFloat.compare]) (not_le_of_gt hpos)
    | @finite n e hn hnlt hnle hnnormal =>
      rw [le_finite_iff]
      rcases lt_trichotomy d e with h | rfl | h
      · have := mul_zpow_lt_mul_zpow hmlt (hnnormal.resolve_right (by omega)) h
        simp [h, this.le]
      · rw [mul_le_mul_iff_of_pos_right (two_zpow_pos d)]
        simp
      · have := mul_zpow_lt_mul_zpow hnlt (hmnormal.resolve_right (by omega)) h
        have hnot : ¬ (d < e ∨ d = e ∧ m ≤ n) := by omega
        simp [hnot, this]

/-! ## Packing -/

theorem finite_congr {s : Sign} {m n : ℕ} {d e : ℤ} {hm : 0 < m} {hn : 0 < n} (h : m = n)
    (he : d = e) : UnpackedFloat.finite s m d hm = .finite s n e hn := by
  subst h he
  rfl

/-- The leading bit of a mantissa is not stored. -/
theorem toNat_leading (mantissa : BitVec 23) :
    (1#1 ++ mantissa).toNat = mantissa.toNat + 2 ^ 23 := by
  have hor := Nat.two_pow_add_eq_or_of_lt mantissa.isLt 1
  rw [Nat.mul_one, Nat.add_comm] at hor
  rw [hor, BitVec.toNat_append]
  rfl

theorem unpack_normal {exponent : BitVec 8} {mantissa : BitVec 23} {m : ℕ} {e : ℤ} (hpos : 0 < m)
    (hsubnormal : exponent ≠ 0#8) (hspecial : exponent ≠ -1#8) (hm : (1#1 ++ mantissa).toNat = m)
    (he : (exponent.toNat : ℤ) - 150 = e) :
    unpack .binary32 (packComponents .binary32 .positive exponent mantissa) =
      .finite .positive m e hpos := by
  unfold unpack
  simp only [unpackMantissa_packComponents, unpackExponent_packComponents,
    unpackSign_packComponents, hsubnormal, hspecial, ↓reduceIte]
  exact finite_congr hm he

theorem unpack_subnormal {mantissa : BitVec 23} {m : ℕ} (hpos : 0 < m) (hm : mantissa.toNat = m) :
    unpack .binary32 (packComponents .binary32 .positive 0#8 mantissa) =
      .finite .positive m (-149) hpos := by
  have hne : mantissa ≠ 0#23 := by
    rintro rfl
    exact hpos.ne hm
  unfold unpack
  simp only [unpackMantissa_packComponents, unpackExponent_packComponents,
    unpackSign_packComponents, hne, ↓reduceIte, ↓reduceDIte]
  exact finite_congr hm rfl

theorem pack_finite {m : ℕ} {e : ℤ} (hpos : 0 < m) :
    pack .binary32 (.finite .positive m e hpos) =
      if 2 ^ 8 ≤ (e + 150).toNat + 1 then packedInfinity .binary32 .positive
      else if m.log2 + 1 = 24 then
        packComponents .binary32 .positive (.ofNat 8 (e + 150).toNat) (.ofNat 23 m)
      else packComponents .binary32 .positive 0#8 (.ofNat 23 m) := by
  have hbias : e + (Format.binary32.exponentBias : ℤ) + (23 : ℕ) = e + 150 := by
    have : Format.binary32.exponentBias = 127 := rfl
    omega
  unfold pack
  rw [hbias]
  rfl

theorem unpack_pack_finite {m : ℕ} {e : ℤ} (hpos : 0 < m) (hlt : m < 2 ^ 24) (hle : -149 ≤ e)
    (hmax : e ≤ 104) (hnormal : 2 ^ 23 ≤ m ∨ e = -149) :
    (Float32.Model.pack (.finite .positive m e hpos)).unpack = .finite .positive m e hpos := by
  change unpack .binary32 (pack .binary32 (.finite .positive m e hpos)) = _
  rw [pack_finite, if_neg (by omega)]
  have hexponent : (BitVec.ofNat 8 (e + 150).toNat).toNat = (e + 150).toNat := by
    rw [BitVec.toNat_ofNat, Nat.mod_eq_of_lt (by omega)]
  by_cases hm : 2 ^ 23 ≤ m
  · rw [if_pos (by rw [(Nat.log2_eq_iff hpos.ne').2 ⟨hm, hlt⟩])]
    have hmantissa : (1#1 ++ BitVec.ofNat 23 m).toNat = m := by
      rw [toNat_leading, BitVec.toNat_ofNat]
      omega
    refine unpack_normal hpos (fun h => ?_) (fun h => ?_) hmantissa ?_
    · rw [h] at hexponent
      have : (0#8).toNat = 0 := rfl
      omega
    · rw [h] at hexponent
      have : (-1#8).toNat = 255 := rfl
      omega
    · omega
  · have hlog : m.log2 < 23 := (Nat.log2_lt hpos.ne').2 (by omega)
    rw [if_neg (by omega), hnormal.resolve_left hm]
    exact unpack_subnormal hpos (by rw [BitVec.toNat_ofNat, Nat.mod_eq_of_lt (by omega)])

/-- A number that is too large is packed as infinity, and no other one is changed by packing. -/
theorem Denotes.unpack_pack {a : UnpackedFloat} {v : ℚ} (h : Denotes a v) :
    (v < 2 ^ 128 → (Float32.Model.pack a).unpack = a) ∧
      (2 ^ 128 ≤ v → (Float32.Model.pack a).unpack = .infinity .positive) := by
  cases h with
  | zero sign =>
    refine ⟨fun _ => ?_, fun h => absurd h (by norm_num)⟩
    exact unpack_packedZero
  | @finite m e hpos hlt hle hnormal =>
    refine ⟨fun h => unpack_pack_finite hpos hlt hle ?_ hnormal, fun h => ?_⟩
    · by_contra hlarge
      have hpow := (le_mul_zpow (hnormal.resolve_right (by omega)) e).trans_lt h
      rw [← zpow_natCast, zpow_lt_zpow_iff_right₀ one_lt_two] at hpow
      omega
    · have hlarge := h.trans_lt (mul_zpow_lt hlt e)
      rw [← zpow_natCast, zpow_lt_zpow_iff_right₀ one_lt_two] at hlarge
      change unpack .binary32 (pack .binary32 (.finite .positive m e hpos)) = _
      rw [pack_finite, if_pos (by omega)]
      rfl

theorem form_of_unpack {bits : BitVec Format.binary32.numBits} {s : Sign} {m : ℕ} {e : ℤ}
    {hpos : 0 < m} (h : unpack .binary32 bits = .finite s m e hpos) :
    m < 2 ^ 24 ∧ -149 ≤ e ∧ e ≤ 104 ∧ (2 ^ 23 ≤ m ∨ e = -149) := by
  have hbias : (Format.binary32.exponentBias : ℤ) = 127 := rfl
  have hmantissa : (unpackMantissa bits).toNat < 2 ^ 23 := (unpackMantissa bits).isLt
  have hexponent : (unpackExponent bits).toNat < 2 ^ 8 := (unpackExponent bits).isLt
  unfold unpack at h
  dsimp only at h
  split at h
  · split at h <;> cases h
  · rename_i hspecial
    have hfinite : (unpackExponent bits).toNat ≠ 255 := fun heq =>
      hspecial (BitVec.eq_of_toNat_eq heq)
    split at h
    · rename_i hzero
      have hexponent : (unpackExponent bits).toNat = 0 := by rw [hzero]; rfl
      split at h
      · cases h
      · cases h
        omega
    · rename_i hzero
      have hnormal : (unpackExponent bits).toNat ≠ 0 := fun heq =>
        hzero (BitVec.eq_of_toNat_eq heq)
      have hleading := toNat_leading (unpackMantissa bits)
      cases h
      omega

/-- Every finite number that is not negative denotes something. -/
theorem exists_denotes {x : Float32} (h : 0 ≤ x) (hfinite : x.isFinite) :
    ∃ v, Denotes x.toModel.unpack v := by
  have hle : (UnpackedFloat.zero .positive).le x.toModel.unpack = true := le_iff_unpack.1 h
  have hnumber : x.toModel.unpack.isFinite = true := hfinite
  have hform := @form_of_unpack x.toModel.toBits.toBitVec
  change ∀ {s m e hpos}, x.toModel.unpack = .finite s m e hpos → _ at hform
  cases hx : x.toModel.unpack with
  | notANumber => rw [hx] at hnumber; cases hnumber
  | infinity sign => rw [hx] at hnumber; cases hnumber
  | zero sign => exact ⟨0, .zero sign⟩
  | finite sign m e hpos =>
    obtain ⟨hlt, hmin, -, hnormal⟩ := hform hx
    cases sign with
    | negative => rw [hx] at hle; cases hle
    | positive => exact ⟨m * 2 ^ e, .finite hpos hlt hmin hnormal⟩

end Folio.Binary32
