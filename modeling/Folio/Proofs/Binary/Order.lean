import Folio.Proofs.Binary.Magnitude

/-!
# The order of numbers

Numbers of 32 bits that are not undefined are in a total order (`lt_of_not_le`, `le_of_not_lt`).
Taking a finite number from one of them never gives one that is undefined (`isNaN_sub`).
-/

set_option autoImplicit false

namespace Folio.Binary32

open Float.Model (Format UnpackedFloat)
open Float.Model.UnpackedFloat

/-! ## Total order -/

theorem lt_iff_unpack {x y : Float32} :
    x < y ↔ x.toModel.unpack.lt y.toModel.unpack = true :=
  ⟨of_decide_eq_true, decide_eq_true⟩

theorem then_compare_eq_lt (m n : ℕ) (d e : ℤ) :
    (compare d e).then (compare m n) = .lt ↔ d < e ∨ d = e ∧ m < n := by
  rw [Ordering.then_eq_lt, Int.compare_eq_lt, Int.compare_eq_eq, Nat.compare_eq_lt]

theorem then_compare_eq_gt (m n : ℕ) (d e : ℤ) :
    (compare d e).then (compare m n) = .gt ↔ e < d ∨ d = e ∧ n < m := by
  rw [Ordering.then_eq_gt, Int.compare_eq_gt, Int.compare_eq_eq, Nat.compare_eq_gt]

theorem lt_iff_position (a b : UnpackedFloat) :
    a.lt b = true ↔ ∃ p ∈ position a, ∃ q ∈ position b, p < q := by
  have hinfinite (s t : Sign) : compare s t = .lt ↔ s = .negative ∧ t = .positive := by
    cases s <;> cases t <;> simp; rfl
  rcases a with (_ | _) | _ | (_ | _) | ⟨_ | _, m, d, hm⟩ <;>
    rcases b with (_ | _) | _ | (_ | _) | ⟨_ | _, n, e, hn⟩ <;>
    simp [position, UnpackedFloat.lt, UnpackedFloat.compare, Prod.Lex.lt_iff, hinfinite,
      then_compare_eq_lt, then_compare_eq_gt]

theorem exists_position {x : Float32} (h : x.isNaN = false) :
    ∃ p, position x.toModel.unpack = some p := by
  have hnumber : x.toModel.unpack.isNaN = false := h
  cases hx : x.toModel.unpack with
  | notANumber => rw [hx] at hnumber; cases hnumber
  | infinity sign => cases sign <;> exact ⟨_, rfl⟩
  | zero sign => exact ⟨_, rfl⟩
  | finite sign m e hpos => cases sign <;> exact ⟨_, rfl⟩

section
variable {x y : Float32}

theorem isNaN_of_isFinite (h : x.isFinite) : x.isNaN = false := by
  have hfinite : x.toModel.unpack.isFinite = true := h
  change x.toModel.unpack.isNaN = false
  cases hx : x.toModel.unpack with
  | notANumber => rw [hx] at hfinite; cases hfinite
  | _ => rfl

theorem lt_of_not_le (hx : x.isNaN = false) (hy : y.isNaN = false) (h : ¬ y ≤ x) : x < y := by
  obtain ⟨p, hp⟩ := exists_position hx
  obtain ⟨q, hq⟩ := exists_position hy
  rw [le_iff_unpack, le_iff_position] at h
  rw [lt_iff_unpack, lt_iff_position]
  refine ⟨p, hp, q, hq, lt_of_not_ge fun hle => h ⟨q, hq, p, hp, hle⟩⟩

theorem le_of_not_lt (hx : x.isNaN = false) (hy : y.isNaN = false) (h : ¬ y < x) : x ≤ y := by
  obtain ⟨p, hp⟩ := exists_position hx
  obtain ⟨q, hq⟩ := exists_position hy
  rw [lt_iff_unpack, lt_iff_position] at h
  rw [le_iff_unpack, le_iff_position]
  refine ⟨p, hp, q, hq, le_of_not_gt fun hlt => h ⟨q, hq, p, hp, hlt⟩⟩

/-! ## Differences -/

/-- Only with the greatest exponent is something undefined, and not if the mantissa is zero. -/
theorem unpack_packComponents_ne {sign : Sign} {exponent : BitVec 8} {mantissa : BitVec 23}
    (h : exponent ≠ -1#8 ∨ mantissa = 0#23) :
    unpack .binary32 (packComponents .binary32 sign exponent mantissa) ≠ .notANumber := by
  unfold unpack
  simp only [unpackMantissa_packComponents, unpackExponent_packComponents]
  rcases h with h | h
  · rw [if_neg h]
    split
    · split <;> exact UnpackedFloat.noConfusion
    · exact UnpackedFloat.noConfusion
  · rw [if_pos h]
    split
    · exact UnpackedFloat.noConfusion
    · split <;> exact UnpackedFloat.noConfusion

/-- Only what is undefined is packed as undefined. -/
theorem unpack_pack_ne {a : UnpackedFloat} (h : a ≠ .notANumber) :
    unpack .binary32 (pack .binary32 a) ≠ .notANumber := by
  cases a with
  | notANumber => exact absurd rfl h
  | infinity sign => exact unpack_packComponents_ne (.inr rfl)
  | zero sign => exact unpack_packComponents_ne (.inr rfl)
  | finite sign m e hpos =>
    unfold pack
    dsimp only
    split
    · exact unpack_packComponents_ne (.inr rfl)
    · rename_i hlt
      split
      · refine unpack_packComponents_ne (.inl fun heq => ?_)
        have hexponent := congrArg BitVec.toNat heq
        rw [BitVec.toNat_ofNat] at hexponent
        have hlargest : (-1#8).toNat = 255 := rfl
        omega
      · exact unpack_packComponents_ne (.inl (by decide))

theorem roundWithAccuracy_ne {sign : Sign} {m : ℕ} {e : ℤ} {accuracy : Accuracy} :
    roundWithAccuracy .binary32 sign m e accuracy ≠ .notANumber := by
  unfold roundWithAccuracy
  dsimp only
  split <;> exact UnpackedFloat.noConfusion

theorem normalize_ne {m e : ℤ} {sign : Sign} :
    UnpackedFloat.normalize .binary32 m e sign ≠ .notANumber := by
  unfold UnpackedFloat.normalize
  split
  · exact roundWithAccuracy_ne
  · exact UnpackedFloat.noConfusion
  · exact roundWithAccuracy_ne

theorem sub_ne {a b : UnpackedFloat} (ha : a ≠ .notANumber) (hb : b.isFinite = true) :
    UnpackedFloat.sub .binary32 a b ≠ .notANumber := by
  cases a with
  | notANumber => exact absurd rfl ha
  | infinity s => cases b <;> first | exact UnpackedFloat.noConfusion | cases hb
  | zero s =>
    cases b with
    | zero t =>
      unfold UnpackedFloat.sub
      dsimp only
      split <;> exact UnpackedFloat.noConfusion
    | finite => exact UnpackedFloat.noConfusion
    | _ => cases hb
  | finite s m d hm =>
    cases b with
    | zero t => exact UnpackedFloat.noConfusion
    | finite => exact normalize_ne
    | _ => cases hb

theorem isNaN_eq_false_iff {a : UnpackedFloat} : a.isNaN = false ↔ a ≠ .notANumber := by
  cases a <;> simp [UnpackedFloat.isNaN]

theorem isNaN_sub (hx : x.isNaN = false) (hy : y.isFinite) : (x - y).isNaN = false :=
  isNaN_eq_false_iff.2 (unpack_pack_ne (sub_ne (isNaN_eq_false_iff.1 hx) hy))

end

end Folio.Binary32
