/-!
# Compressed data

Data is compressed in blocks. A block holds bytes as they are, or symbols in a code that gives
frequent symbols short words: a symbol is a byte, or says how many bytes to copy from how far back.
A header and a check sum stand around the blocks. `decompress` gives back the data; of data that is
cut off it gives what is there, and of broken data nothing. `store` puts data into this form without
making it any shorter.
-/

set_option autoImplicit false

namespace Folio.Deflate

/-- Bits in the order in which they are read. -/
abbrev Bits := List Bool

/-- Why compressed data has no proper end. -/
inductive Fault where
  | cutOff
  | broken
deriving DecidableEq, Repr

/-- The bits of bytes, the lowest bit of each byte first. -/
def bitsOf (bytes : List UInt8) : Bits :=
  bytes.flatMap fun byte => (List.range 8).map byte.toNat.testBit

/-- A number of some bits, the lowest first. -/
def readBits : Nat → Bits → Except Fault (Nat × Bits)
  | 0, bits => .ok (0, bits)
  | _ + 1, [] => .error .cutOff
  | count + 1, bit :: bits => do
    let (high, bits) ← readBits count bits
    .ok (high * 2 + bit.toNat, bits)

/-! ### Codes -/

/-- A code, as the symbols with words of one bit, of two bits, and so on. Words of one length are
consecutive numbers, and follow those that begin with shorter words. -/
abbrev Code := List (Array Nat)

/-- How many bits a word has at most. -/
def longestWord : Nat := 15

/-- The code in which every symbol has a word of the length given for it, or none for a zero. -/
def Code.ofLengths (lengths : List Nat) : Code :=
  (List.range longestWord).map fun i =>
    (lengths.zipIdx.filterMap fun (length, symbol) =>
      if length = i + 1 then some symbol else none).toArray

/-- The symbol whose word the bits begin with. The bits read so far make a number that is `above`
the first word of their length. -/
def readSymbolFrom : Code → Nat → Bits → Except Fault (Nat × Bits)
  | [], _, _ => .error .broken
  | _ :: _, _, [] => .error .cutOff
  | symbols :: longer, above, bit :: bits =>
    let above := above * 2 + bit.toNat
    match symbols[above]? with
    | some symbol => .ok (symbol, bits)
    | none => readSymbolFrom longer (above - symbols.size) bits

/-- The symbol whose word the bits begin with. -/
def readSymbol (code : Code) (bits : Bits) : Except Fault (Nat × Bits) :=
  readSymbolFrom code 0 bits

/-- The codes of a block that does not bring its own: for bytes and lengths, and for distances. -/
def fixedCodes : Code × Code :=
  (.ofLengths (List.replicate 144 8 ++ List.replicate 112 9 ++ List.replicate 24 7 ++
    List.replicate 8 8), .ofLengths (List.replicate 30 5))

/-- The order in which the lengths of the words for lengths are given. -/
def lengthOrder : List Nat := [16, 17, 18, 0, 8, 7, 9, 6, 10, 5, 11, 4, 12, 3, 13, 2, 14, 1, 15]

/-- Reads `count` numbers of `width` bits. -/
def readNumbers (width : Nat) : Nat → Bits → Except Fault (List Nat × Bits)
  | 0, bits => .ok ([], bits)
  | count + 1, bits => do
    let (number, bits) ← readBits width bits
    let (numbers, bits) ← readNumbers width count bits
    .ok (number :: numbers, bits)

/-- What a symbol adds to lengths, given from the last to the first: one more length, or repeats. -/
def readRepeats (symbol : Nat) (lengths : List Nat) (bits : Bits) :
    Except Fault (List Nat × Bits) := do
  if symbol < 16 then .ok (symbol :: lengths, bits)
  else if symbol = 16 then
    let (count, bits) ← readBits 2 bits
    match lengths with
    | [] => .error .broken
    | last :: _ => .ok (List.replicate (count + 3) last ++ lengths, bits)
  else if symbol = 17 then
    let (count, bits) ← readBits 3 bits
    .ok (List.replicate (count + 3) 0 ++ lengths, bits)
  else
    let (count, bits) ← readBits 7 bits
    .ok (List.replicate (count + 11) 0 ++ lengths, bits)

/-- Reads lengths until there are as many as `total` says; `fuel` bounds how many symbols are
read. -/
def readLengths (code : Code) (total : Nat) : Nat → List Nat → Bits → Except Fault (List Nat × Bits)
  | 0, _, _ => .error .broken
  | fuel + 1, lengths, bits =>
    if lengths.length = total then .ok (lengths.reverse, bits)
    else if total < lengths.length then .error .broken
    else do
      let (symbol, bits) ← readSymbol code bits
      let (lengths, bits) ← readRepeats symbol lengths bits
      readLengths code total fuel lengths bits

/-- The codes that a block brings. -/
def readCodes (bits : Bits) : Except Fault ((Code × Code) × Bits) := do
  let (symbols, bits) ← readBits 5 bits
  let (distances, bits) ← readBits 5 bits
  let (count, bits) ← readBits 4 bits
  let (widths, bits) ← readNumbers 3 (count + 4) bits
  let given := lengthOrder.zip widths
  let code := Code.ofLengths ((List.range 19).map fun symbol => (given.lookup symbol).getD 0)
  let symbols := symbols + 257
  let total := symbols + distances + 1
  let (lengths, bits) ← readLengths code total (total + 1) [] bits
  .ok ((.ofLengths (lengths.take symbols), .ofLengths (lengths.drop symbols)), bits)

/-! ### Blocks -/

/-- The data before a fault, or before the bits that are left. -/
structure Progress where
  data : Array UInt8
  rest : Except Fault Bits

/-- How many bytes to copy, by a symbol above those of bytes and of the end. -/
def readLength (symbol : Nat) (bits : Bits) : Except Fault (Nat × Bits) :=
  let i := symbol - 257
  if i < 8 then .ok (i + 3, bits)
  else if i < 28 then do
    let width := i / 4 - 1
    let (more, bits) ← readBits width bits
    .ok (((4 + i % 4) <<< width) + 3 + more, bits)
  else if i = 28 then .ok (258, bits)
  else .error .broken

/-- How far back to copy from. -/
def readDistance (code : Code) (bits : Bits) : Except Fault (Nat × Bits) := do
  let (i, bits) ← readSymbol code bits
  if i < 4 then .ok (i + 1, bits)
  else if i < 30 then
    let width := i / 2 - 1
    let (more, bits) ← readBits width bits
    .ok (((2 + i % 2) <<< width) + 1 + more, bits)
  else .error .broken

/-- Data with `count` bytes added, each the one `distance` bytes before it. -/
def copyBack (distance : Nat) : Nat → Array UInt8 → Array UInt8
  | 0, data => data
  | count + 1, data => copyBack distance count (data.push (data[data.size - distance]?.getD 0))

/-- Reads the symbols of a block, up to that of its end; `fuel` bounds how many. -/
def readBlock (codes : Code × Code) : Nat → Array UInt8 → Bits → Progress
  | 0, data, _ => ⟨data, .error .broken⟩
  | fuel + 1, data, bits =>
    match readSymbol codes.1 bits with
    | .error fault => ⟨data, .error fault⟩
    | .ok (symbol, bits) =>
      if symbol < 256 then readBlock codes fuel (data.push (UInt8.ofNat symbol)) bits
      else if symbol = 256 then ⟨data, .ok bits⟩
      else
        let back : Except Fault (Nat × Nat × Bits) := do
          let (length, bits) ← readLength symbol bits
          let (distance, bits) ← readDistance codes.2 bits
          if data.size < distance then throw .broken
          return (length, distance, bits)
        match back with
        | .error fault => ⟨data, .error fault⟩
        | .ok (length, distance, bits) =>
          readBlock codes fuel (copyBack distance length data) bits

/-- Bits from the next start of a byte on, where all bits end with a byte. -/
def skipToByte (bits : Bits) : Bits :=
  bits.drop (bits.length % 8)

/-- Reads `count` bytes as they are. -/
def readBytes : Nat → Array UInt8 → Bits → Progress
  | 0, data, bits => ⟨data, .ok bits⟩
  | count + 1, data, bits =>
    match readBits 8 bits with
    | .error fault => ⟨data, .error fault⟩
    | .ok (byte, bits) => readBytes count (data.push (UInt8.ofNat byte)) bits

/-- The length of a block of plain bytes, which is given twice. -/
def readPlainLength (bits : Bits) : Except Fault (Nat × Bits) := do
  let (length, bits) ← readBits 16 (skipToByte bits)
  let (check, bits) ← readBits 16 bits
  if length + check = 0xFFFF then .ok (length, bits) else .error .broken

/-- Reads what a block holds, by its kind. -/
def readContent (kind : Nat) (data : Array UInt8) (bits : Bits) : Progress :=
  match kind with
  | 0 =>
    match readPlainLength bits with
    | .error fault => ⟨data, .error fault⟩
    | .ok (length, bits) => readBytes length data bits
  | 1 => readBlock fixedCodes (bits.length + 1) data bits
  | 2 =>
    match readCodes bits with
    | .error fault => ⟨data, .error fault⟩
    | .ok (codes, bits) => readBlock codes (bits.length + 1) data bits
  | _ => ⟨data, .error .broken⟩

/-- Reads blocks up to the one that says that it is the last; `fuel` bounds how many. -/
def readBlocks : Nat → Array UInt8 → Bits → Progress
  | 0, data, _ => ⟨data, .error .broken⟩
  | fuel + 1, data, bits =>
    match readBits 3 bits with
    | .error fault => ⟨data, .error fault⟩
    | .ok (head, bits) =>
      let progress := readContent (head / 2) data bits
      match progress.rest with
      | .error _ => progress
      | .ok rest => if head % 2 = 1 then progress else readBlocks fuel progress.data rest

/-! ### The frame -/

/-- The check sum of data: two sums that wrap at a prime. -/
def checkSum (data : Array UInt8) : Nat :=
  let (low, high) := data.foldl (fun (low, high) byte =>
    let low := (low + byte.toNat) % 65521
    (low, (high + low) % 65521)) (1, 0)
  high * 65536 + low

/-- Whether two bytes are a proper header: the known method, a window that is not too large, and no
dictionary. -/
def isHeader (method flags : UInt8) : Bool :=
  method.toNat % 16 = 8 && method.toNat / 16 ≤ 7 &&
    (method.toNat * 256 + flags.toNat) % 31 = 0 && !flags.toNat.testBit 5

/-- Whether data has the check sum that stands behind its blocks, as far as there is one. -/
def agrees (data : Array UInt8) (bits : Bits) : Bool :=
  match readNumbers 8 4 (skipToByte bits) with
  | .ok (bytes, _) => bytes.foldl (fun n byte => n * 256 + byte) 0 = checkSum data
  | .error _ => true

/-- The data that compressed bytes stand for: what there is of it if they are cut off, and nothing
if they are broken. -/
def decompress (bytes : List UInt8) : List UInt8 :=
  match bytes with
  | method :: flags :: rest =>
    if isHeader method flags then
      let progress := readBlocks (8 * rest.length + 1) #[] (bitsOf rest)
      match progress.rest with
      | .ok bits => if agrees progress.data bits then progress.data.toList else []
      | .error .cutOff => progress.data.toList
      | .error .broken => []
    else []
  | _ => []

/-! ### Storing -/

/-- A number in two bytes, the lower one first. -/
def lowFirst (n : Nat) : List UInt8 :=
  [UInt8.ofNat (n % 256), UInt8.ofNat (n / 256)]

/-- How many plain bytes a block holds at most. -/
def longestBlock : Nat := 0xFFFF

/-- A block of plain bytes. -/
def plainBlock (isLast : Bool) (bytes : List UInt8) : List UInt8 :=
  UInt8.ofNat isLast.toNat ::
    lowFirst bytes.length ++ lowFirst (longestBlock - bytes.length) ++ bytes

/-- Blocks of plain bytes. -/
def plainBlocks (bytes : List UInt8) : List UInt8 :=
  if bytes.length ≤ longestBlock then plainBlock true bytes
  else plainBlock false (bytes.take longestBlock) ++ plainBlocks (bytes.drop longestBlock)
termination_by bytes.length
decreasing_by
  have hpos : 0 < longestBlock := by decide
  rw [List.length_drop]
  omega

/-- A number in four bytes, the highest one first. -/
def highFirst (n : Nat) : List UInt8 :=
  [n / 0x1000000, n / 0x10000, n / 0x100, n].map UInt8.ofNat

/-- The compressed form of data, in which the data stands as it is. -/
def store (bytes : List UInt8) : List UInt8 :=
  0x78 :: 0x01 :: plainBlocks bytes ++ highFirst (checkSum bytes.toArray)

end Folio.Deflate
