import Folio.Number.Binary
import Mathlib

/-!
# Exact operations on binary numbers

A number of 32 bits is what is packed again from its parts (`pack_unpack`). So operations that only
look at the parts of a positive number leave it as it is: taking zero away from it, and dropping its
sign.
-/

set_option autoImplicit false

namespace Folio.Binary32

open Float.Model (Format UnpackedFloat)

theorem pack_unpack (x : Float32.Model) : Float32.Model.pack x.unpack = x := by
  obtain ⟨bits, hvalid⟩ := x
  have hbits : UnpackedFloat.pack .binary32 (UnpackedFloat.unpack .binary32 bits.toBitVec) =
      bits.toBitVec := UnpackedFloat.pack_unpack_of_valid hvalid
  simp only [Float32.Model.pack, Float32.Model.unpack, hbits]

/-! ## Positive numbers -/

/-- A positive number has a positive sign, and is neither zero nor undefined. -/
theorem unpack_of_pos {x : Float32} (h : 0 < x) :
    x.toModel.unpack = .infinity .positive ∨
      ∃ m e hpos, x.toModel.unpack = .finite .positive m e hpos := by
  have hlt : (UnpackedFloat.zero .positive).lt x.toModel.unpack = true := of_decide_eq_true h
  cases hx : x.toModel.unpack with
  | notANumber => rw [hx] at hlt; cases hlt
  | zero sign => rw [hx] at hlt; cases hlt
  | infinity sign =>
    cases sign with
    | positive => exact .inl rfl
    | negative => rw [hx] at hlt; cases hlt
  | finite sign m e hpos =>
    cases sign with
    | positive => exact .inr ⟨m, e, hpos, rfl⟩
    | negative => rw [hx] at hlt; cases hlt

theorem sub_zero_of_pos {x : Float32} (h : 0 < x) : x - ofInt 0 = x := by
  have hzero : (ofInt 0).toModel.unpack = .zero .positive := by rfl
  have hsub : UnpackedFloat.sub .binary32 x.toModel.unpack (ofInt 0).toModel.unpack =
      x.toModel.unpack := by
    rw [hzero]
    rcases unpack_of_pos h with hx | ⟨m, e, hpos, hx⟩
    · rw [hx]; rfl
    · rw [hx]; rfl
  calc x - ofInt 0
    _ = .ofModel (.pack (UnpackedFloat.sub .binary32 x.toModel.unpack (ofInt 0).toModel.unpack)) :=
      rfl
    _ = x := by rw [hsub, pack_unpack]

theorem abs_of_pos {x : Float32} (h : 0 < x) : x.abs = x := by
  have habs : x.toModel.unpack.abs = x.toModel.unpack := by
    rcases unpack_of_pos h with hx | ⟨m, e, hpos, hx⟩
    · rw [hx]; rfl
    · rw [hx]; rfl
  calc x.abs
    _ = .ofModel (.pack x.toModel.unpack.abs) := rfl
    _ = x := by rw [habs, pack_unpack]

end Folio.Binary32
