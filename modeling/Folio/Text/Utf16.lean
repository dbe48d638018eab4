import Folio.Text.Utf8

/-!
# UTF-16

Text as units of 16 bits: a character is one unit, or two surrogates. Units are read either strictly
or with a replacement character for a surrogate that lacks its partner. Of the two bytes of a unit
the high one comes first, unless a mark at the start of the bytes says otherwise.
-/

set_option autoImplicit false

namespace Folio.Text.Utf16

/-- The units that stand for a character. -/
def units (c : Char) : List Nat :=
  if c.toNat < 0x10000 then [c.toNat]
  else [0xD800 + (c.toNat - 0x10000) / 0x400, 0xDC00 + (c.toNat - 0x10000) % 0x400]

/-- Whether a unit is the first of a pair. -/
def isHighSurrogate (unit : Nat) : Bool :=
  0xD800 ≤ unit && unit < 0xDC00

/-- Whether a unit is the second of a pair. -/
def isLowSurrogate (unit : Nat) : Bool :=
  0xDC00 ≤ unit && unit < 0xE000

/-- The character of a pair of surrogates. -/
def joinSurrogates (high low : Nat) : Char :=
  Char.ofNat (0x10000 + (high - 0xD800) * 0x400 + (low - 0xDC00))

/-- The character of a unit that stands alone, if it is no surrogate. -/
def ofUnit? (unit : Nat) : Option Char :=
  if isHighSurrogate unit || isLowSurrogate unit then none else some (Char.ofNat unit)

/-- The characters that units stand for, and none for a surrogate without its partner. -/
def decodePartly : List Nat → List (Option Char)
  | [] => []
  | [unit] => [ofUnit? unit]
  | unit :: next :: rest =>
    if isHighSurrogate unit && isLowSurrogate next then
      some (joinSurrogates unit next) :: decodePartly rest
    else ofUnit? unit :: decodePartly (next :: rest)

/-- The characters that units stand for; a surrogate without its partner is replaced. -/
def decode (units : List Nat) : List Char :=
  (decodePartly units).map (·.getD replacement)

/-- The characters that units stand for, unless a surrogate lacks its partner. -/
def decode? (units : List Nat) : Option (List Char) :=
  (decodePartly units).mapM id

/-- The units that bytes hold, two bytes each with the high one first; a last byte alone holds
none. -/
def ofBytes : List UInt8 → List Nat
  | high :: low :: rest => (high.toNat * 256 + low.toNat) :: ofBytes rest
  | _ => []

/-- The bytes of a unit, the high one first. -/
def toBytes (unit : Nat) : List UInt8 :=
  [UInt8.ofNat (unit / 256), UInt8.ofNat unit]

/-- The text of bytes, the high one of a unit first; a last byte alone is replaced. -/
def decodeBytes (bytes : List UInt8) : List Char :=
  decode (ofBytes bytes) ++ if bytes.length % 2 = 0 then [] else [replacement]

/-- The bytes of units whose low byte comes first, the high one put in front. -/
def swapPairs : List UInt8 → List UInt8
  | low :: high :: rest => high :: low :: swapPairs rest
  | rest => rest

/-- The text of bytes. A mark at their start is no part of it and says which byte of a unit comes
first, or that the bytes are UTF-8. -/
def decodeMarked (bytes : List UInt8) : List Char :=
  match bytes with
  | 0xFE :: 0xFF :: rest => decodeBytes rest
  | 0xFF :: 0xFE :: rest => decodeBytes (swapPairs rest)
  | 0xEF :: 0xBB :: 0xBF :: _ => decodeUtf8 bytes
  | _ => decodeBytes bytes

end Folio.Text.Utf16
