/-!
# Text from bytes

Bytes are read as UTF-8. Where they are not, `decodeUtf8` counts each longest start of a character
as one replacement character, and `decodePartly` keeps the place of every single byte.
-/

set_option autoImplicit false

namespace Folio.Text

/-- What stands for bytes that are no character. -/
def replacement : Char := '\uFFFD'

/-- What a first byte says: the bits it brings, how many bytes follow, and the range in which the
second byte must lie. -/
def leadByte? (byte : Nat) : Option (Nat × Nat × Nat × Nat) :=
  if 0xC2 ≤ byte ∧ byte ≤ 0xDF then some (byte - 0xC0, 1, 0x80, 0xBF)
  else if byte = 0xE0 then some (0, 2, 0xA0, 0xBF)
  else if byte = 0xED then some (0xD, 2, 0x80, 0x9F)
  else if 0xE1 ≤ byte ∧ byte ≤ 0xEF then some (byte - 0xE0, 2, 0x80, 0xBF)
  else if byte = 0xF0 then some (0, 3, 0x90, 0xBF)
  else if 0xF1 ≤ byte ∧ byte ≤ 0xF3 then some (byte - 0xF0, 3, 0x80, 0xBF)
  else if byte = 0xF4 then some (4, 3, 0x80, 0x8F)
  else none

/-- Reads bytes of which a character may have begun: `code` are its bits so far, `left` says how
many bytes it lacks, and the next one must lie between `low` and `high`. -/
def decodeUtf8From (code left low high : Nat) : List UInt8 → List Char
  | [] => if left = 0 then [] else [replacement]
  | byte :: rest =>
    let n := byte.toNat
    if left ≠ 0 ∧ low ≤ n ∧ n ≤ high then
      let code := code * 64 + n % 64
      if left = 1 then Char.ofNat code :: decodeUtf8From 0 0 0 0 rest
      else decodeUtf8From code (left - 1) 0x80 0xBF rest
    else
      let broken := if left = 0 then [] else [replacement]
      broken ++
        if n < 0x80 then Char.ofNat n :: decodeUtf8From 0 0 0 0 rest
        else
          match leadByte? n with
          | some (bits, count, low, high) => decodeUtf8From bits count low high rest
          | none => replacement :: decodeUtf8From 0 0 0 0 rest

/-- The text of bytes; a mark of the byte order at its start does not count. -/
def decodeUtf8 (bytes : List UInt8) : List Char :=
  match decodeUtf8From 0 0 0 0 bytes with
  | '\uFEFF' :: rest => rest
  | text => text

/-! ### Bytes that are kept apart -/

/-- The code point of a character of which `count` bytes are to come, the next between `low` and
`high`; `code` are its bits so far. -/
def restOfChar? (code : Nat) : Nat → Nat → Nat → List UInt8 → Option Nat
  | 0, _, _, _ => some code
  | _ + 1, _, _, [] => none
  | count + 1, low, high, byte :: rest =>
    if low ≤ byte.toNat ∧ byte.toNat ≤ high then
      restOfChar? (code * 64 + byte.toNat % 64) count 0x80 0xBF rest
    else none

/-- The character that a byte and those behind it begin with. -/
def firstChar? (byte : UInt8) (rest : List UInt8) : Option Char :=
  if byte.toNat < 0x80 then some (Char.ofNat byte.toNat)
  else do
    let (bits, count, low, high) ← leadByte? byte.toNat
    (restOfChar? bits count low high rest).map Char.ofNat

/-- Drops as many bytes as `skip` says, then reads the others: the characters, and none for each
byte that belongs to no character. -/
def decodePartlyFrom : Nat → List UInt8 → List (Option Char)
  | _, [] => []
  | skip + 1, _ :: rest => decodePartlyFrom skip rest
  | 0, byte :: rest =>
    match firstChar? byte rest with
    | some c => some c :: decodePartlyFrom (c.utf8Size - 1) rest
    | none => none :: decodePartlyFrom 0 rest

/-- The characters of bytes, and none for each byte that belongs to no character. -/
def decodePartly (bytes : List UInt8) : List (Option Char) :=
  decodePartlyFrom 0 bytes

end Folio.Text
