import Folio.Pdf.Deflate
import Mathlib.Algebra.Ring.Nat

/-!
# Stored data

Data that is stored comes back as it was (`decompress_store`): every block of plain bytes is read up
to where it ends, and the check sum behind the last block is that of the data.
-/

set_option autoImplicit false

namespace Folio.Deflate

/-! ## Bits -/

theorem bitsOf_cons (byte : UInt8) (rest : List UInt8) :
    bitsOf (byte :: rest) = (List.range 8).map byte.toNat.testBit ++ bitsOf rest := rfl

@[simp] theorem length_bitsOf (bytes : List UInt8) : (bitsOf bytes).length = 8 * bytes.length := by
  induction bytes with
  | nil => rfl
  | cons byte bytes ih =>
    rw [bitsOf_cons, List.length_append, ih, List.length_map, List.length_range, List.length_cons]
    omega

/-- The lowest bits of a number make it up below their power of two. -/
theorem readBits_testBit (count n : Nat) (rest : Bits) :
    readBits count ((List.range count).map n.testBit ++ rest) = .ok (n % 2 ^ count, rest) := by
  induction count generalizing n with
  | zero => simp [readBits, Nat.mod_one]
  | succ count ih =>
    have hbits : (List.range (count + 1)).map n.testBit =
        n.testBit 0 :: (List.range count).map (n / 2).testBit := by
      rw [List.range_succ_eq_map, List.map_cons, List.map_map]
      congr 1
      exact List.map_congr_left fun i _ => Nat.testBit_succ n i
    have hlow : (n.testBit 0).toNat = n % 2 := by
      rw [Nat.testBit_zero]
      rcases Nat.mod_two_eq_zero_or_one n with h | h <;> simp [h]
    have hsplit : n / 2 % 2 ^ count * 2 + n % 2 = n % 2 ^ (count + 1) := by
      rw [Nat.pow_succ, Nat.mul_comm (2 ^ count), Nat.mod_mul]
      omega
    rw [hbits, List.cons_append, readBits, ih]
    simp only [bind, Except.bind]
    rw [hlow, hsplit]

theorem readBits_byte (byte : UInt8) (rest : List UInt8) :
    readBits 8 (bitsOf (byte :: rest)) = .ok (byte.toNat, bitsOf rest) := by
  rw [bitsOf_cons, readBits_testBit, Nat.mod_eq_of_lt byte.toNat_lt]

/-- Bits that are read one after the other make up one number. -/
theorem readBits_add {a b low high : Nat} {bits middle rest : Bits}
    (hlow : readBits a bits = .ok (low, middle)) (hhigh : readBits b middle = .ok (high, rest)) :
    readBits (a + b) bits = .ok (high * 2 ^ a + low, rest) := by
  induction a generalizing low bits with
  | zero =>
    cases hlow
    simpa using hhigh
  | succ a ih =>
    cases bits with
    | nil => cases hlow
    | cons bit bits =>
      rw [Nat.add_right_comm, readBits]
      rw [readBits] at hlow
      cases hread : readBits a bits with
      | error fault =>
        rw [hread] at hlow
        cases hlow
      | ok found =>
        obtain ⟨n, left⟩ := found
        rw [hread] at hlow
        cases hlow
        rw [ih hread]
        simp only [bind, Except.bind]
        congr 2
        rw [Nat.pow_succ, Nat.add_mul, Nat.mul_assoc, Nat.add_assoc]

/-- A number in two bytes. -/
theorem readBits_lowFirst {n : Nat} (hn : n < 0x10000) (rest : List UInt8) :
    readBits 16 (bitsOf (lowFirst n ++ rest)) = .ok (n, bitsOf rest) := by
  have hlow : (UInt8.ofNat (n % 256)).toNat = n % 256 := by
    rw [UInt8.toNat_ofNat', Nat.mod_mod]
  have hhigh : (UInt8.ofNat (n / 256)).toNat = n / 256 := by
    rw [UInt8.toNat_ofNat']
    omega
  have hread := readBits_add (readBits_byte (UInt8.ofNat (n % 256)) (UInt8.ofNat (n / 256) :: rest))
    (readBits_byte (UInt8.ofNat (n / 256)) rest)
  rw [hlow, hhigh, show (2 : Nat) ^ 8 = 256 from rfl, Nat.div_add_mod'] at hread
  exact hread

@[simp] theorem skipToByte_bitsOf (bytes : List UInt8) :
    skipToByte (bitsOf bytes) = bitsOf bytes := by
  rw [skipToByte, length_bitsOf, Nat.mul_mod_right, List.drop_zero]

/-! ## Blocks -/

theorem readBytes_bitsOf (data : Array UInt8) (bytes rest : List UInt8) :
    readBytes bytes.length data (bitsOf (bytes ++ rest)) =
      ⟨data ++ bytes.toArray, .ok (bitsOf rest)⟩ := by
  induction bytes generalizing data with
  | nil => simp [readBytes]
  | cons byte bytes ih =>
    rw [List.length_cons, List.cons_append, readBytes, readBits_byte]
    simp only [UInt8.ofNat_toNat]
    rw [ih]
    simp

/-- What the head of a block of plain bytes says, and where its bytes begin. -/
theorem readBits_plainBlock (isLast : Bool) (bytes rest : List UInt8) :
    ∃ bits, readBits 3 (bitsOf (plainBlock isLast bytes ++ rest)) = .ok (isLast.toNat, bits) ∧
      skipToByte bits = bitsOf (lowFirst bytes.length ++
        (lowFirst (longestBlock - bytes.length) ++ (bytes ++ rest))) := by
  have hblock : plainBlock isLast bytes ++ rest =
      UInt8.ofNat isLast.toNat :: (lowFirst bytes.length ++
        (lowFirst (longestBlock - bytes.length) ++ (bytes ++ rest))) := by
    simp [plainBlock]
  have hhead : (UInt8.ofNat isLast.toNat).toNat = isLast.toNat := by cases isLast <;> rfl
  rw [hblock]
  generalize lowFirst bytes.length ++
    (lowFirst (longestBlock - bytes.length) ++ (bytes ++ rest)) = rest
  -- the head takes three bits of its byte, and the other five are skipped
  refine ⟨List.replicate 5 false ++ bitsOf rest, ?_, ?_⟩
  · have hbits : bitsOf (UInt8.ofNat isLast.toNat :: rest) =
        (List.range 3).map isLast.toNat.testBit ++ (List.replicate 5 false ++ bitsOf rest) := by
      cases isLast <;> rfl
    have hsmall : isLast.toNat % 2 ^ 3 = isLast.toNat := by cases isLast <;> rfl
    rw [hbits, readBits_testBit, hsmall]
  · have hlength : (List.replicate 5 false ++ bitsOf rest).length % 8 = 5 := by
      rw [List.length_append, List.length_replicate, length_bitsOf, Nat.add_mul_mod_self_left]
    rw [skipToByte, hlength]
    rfl

theorem readContent_plain {bytes rest : List UInt8} {bits : Bits} (data : Array UInt8)
    (hlength : bytes.length ≤ longestBlock)
    (hbits : skipToByte bits = bitsOf (lowFirst bytes.length ++
      (lowFirst (longestBlock - bytes.length) ++ (bytes ++ rest)))) :
    readContent 0 data bits = ⟨data ++ bytes.toArray, .ok (bitsOf rest)⟩ := by
  have hlong : longestBlock = 0xFFFF := rfl
  have hplain : readPlainLength bits = .ok (bytes.length, bitsOf (bytes ++ rest)) := by
    rw [readPlainLength, hbits, readBits_lowFirst (by omega)]
    simp only [bind, Except.bind]
    rw [readBits_lowFirst (by omega)]
    exact if_pos (by omega)
  rw [readContent, hplain]
  exact readBytes_bitsOf data bytes rest

/-- Blocks of plain bytes hold the bytes, and nothing of what follows. -/
theorem readBlocks_plain (bytes rest : List UInt8) {fuel : Nat} (hfuel : bytes.length < fuel)
    (data : Array UInt8) :
    readBlocks fuel data (bitsOf (plainBlocks bytes ++ rest)) =
      ⟨data ++ bytes.toArray, .ok (bitsOf rest)⟩ := by
  obtain ⟨fuel, rfl⟩ : ∃ k, fuel = k + 1 := ⟨fuel - 1, by omega⟩
  induction bytes using plainBlocks.induct generalizing fuel data with
  | case1 bytes hshort =>
    obtain ⟨bits, hhead, hskip⟩ := readBits_plainBlock true bytes rest
    rw [plainBlocks, if_pos hshort, readBlocks, hhead]
    simp only [Bool.toNat_true, Nat.reduceDiv, readContent_plain data hshort hskip]
    rfl
  | case2 bytes hlong ih =>
    have hpos : 0 < longestBlock := by decide
    have htake : (bytes.take longestBlock).length ≤ longestBlock := List.length_take_le _ _
    -- the block takes bytes, so that the fuel is still enough for the others
    have hdrop : (bytes.drop longestBlock).length = bytes.length - longestBlock := List.length_drop
    obtain ⟨bits, hhead, hskip⟩ := readBits_plainBlock false (bytes.take longestBlock)
      (plainBlocks (bytes.drop longestBlock) ++ rest)
    obtain ⟨fuel, rfl⟩ : ∃ k, fuel = k + 1 := ⟨fuel - 1, by omega⟩
    rw [plainBlocks, if_neg hlong, List.append_assoc, readBlocks, hhead]
    simp only [Bool.toNat_false, Nat.reduceDiv, readContent_plain data htake hskip]
    rw [if_neg (by decide), ih _ _ (by omega)]
    simp

/-! ## The frame -/

theorem checkSum_lt (data : Array UInt8) : checkSum data < 0x100000000 := by
  have hsum (sums : Nat × Nat) (h : sums.1 < 65521 ∧ sums.2 < 65521) :
      sums.2 * 65536 + sums.1 < 0x100000000 := by omega
  refine hsum _ (Array.foldl_induction
    (fun _ (sums : Nat × Nat) => sums.1 < 65521 ∧ sums.2 < 65521) (by decide) ?_)
  exact fun _ _ _ => ⟨Nat.mod_lt _ (Nat.zero_lt_succ _), Nat.mod_lt _ (Nat.zero_lt_succ _)⟩

/-- The check sum behind the blocks is found. -/
theorem agrees_highFirst (data : Array UInt8) :
    agrees data (bitsOf (highFirst (checkSum data))) = true := by
  have hlt := checkSum_lt data
  generalize hsum : checkSum data = n at hlt
  have hread : readNumbers 8 4 (bitsOf (highFirst n)) =
      .ok ([n / 0x1000000 % 256, n / 0x10000 % 256, n / 0x100 % 256, n % 256], []) := by
    simp only [highFirst, List.map_cons, List.map_nil, readNumbers, readBits_byte, bind,
      Except.bind, UInt8.toNat_ofNat']
    rfl
  rw [agrees, skipToByte_bitsOf, hread]
  simp only [List.foldl_cons, List.foldl_nil, hsum, decide_eq_true_eq]
  omega

theorem length_le_plainBlocks (bytes : List UInt8) :
    bytes.length ≤ (plainBlocks bytes).length := by
  have hblock (isLast : Bool) (bytes : List UInt8) :
      bytes.length ≤ (plainBlock isLast bytes).length := by
    simp [plainBlock]
    omega
  induction bytes using plainBlocks.induct with
  | case1 bytes hshort =>
    rw [plainBlocks, if_pos hshort]
    exact hblock true bytes
  | case2 bytes hlong ih =>
    have hsplit : bytes.length =
        (bytes.take longestBlock).length + (bytes.drop longestBlock).length := by
      rw [← List.length_append, List.take_append_drop]
    rw [plainBlocks, if_neg hlong, List.length_append, hsplit]
    exact Nat.add_le_add (hblock false _) ih

/-- Data that is stored comes back. -/
theorem decompress_store (bytes : List UInt8) : decompress (store bytes) = bytes := by
  have hfuel : bytes.length <
      8 * (plainBlocks bytes ++ highFirst (checkSum bytes.toArray)).length + 1 := by
    have hle := length_le_plainBlocks bytes
    rw [List.length_append]
    omega
  have hblocks := readBlocks_plain bytes (highFirst (checkSum bytes.toArray)) hfuel #[]
  rw [Array.empty_append] at hblocks
  have hheader : isHeader 0x78 0x01 = true := by decide
  rw [store, List.cons_append, List.cons_append, decompress, if_pos hheader, hblocks]
  simp only [agrees_highFirst, ↓reduceIte]

end Folio.Deflate
