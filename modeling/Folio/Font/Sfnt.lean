/-!
# Font files

A font file is a directory of tables. Numbers in it are written with the high byte first, and a
table is a stretch of the file; one that does not lie in the file counts as absent.
-/

set_option autoImplicit false

namespace Folio.Sfnt

/-! ### Numbers in tables -/

/-- The byte at an offset. -/
def byte? (table : ByteArray) (at_ : Nat) : Option Nat :=
  if h : at_ < table.size then some table[at_].toNat else none

/-- The unsigned number of 16 bits at an offset. -/
def word? (table : ByteArray) (at_ : Nat) : Option Nat := do
  return (← byte? table at_) * 256 + (← byte? table (at_ + 1))

/-- The unsigned number of 32 bits at an offset. -/
def long? (table : ByteArray) (at_ : Nat) : Option Nat := do
  return (← word? table at_) * 65536 + (← word? table (at_ + 2))

/-- A number of 16 bits, taken with its sign. -/
def signed (word : Nat) : Int :=
  if word < 0x8000 then word else (word : Int) - 0x10000

/-- The signed number of 16 bits at an offset. -/
def signedWord? (table : ByteArray) (at_ : Nat) : Option Int :=
  (word? table at_).map signed

/-- Whether a table has `count` bytes from an offset on. -/
def holds (table : ByteArray) (at_ count : Nat) : Bool :=
  at_ + count ≤ table.size

/-- The stretch of bytes from an offset on, if all of it is there. -/
def slice? (table : ByteArray) (at_ count : Nat) : Option ByteArray :=
  if holds table at_ count then some (table.extract at_ (at_ + count)) else none

/-! ### The directory -/

/-- Why bytes are not a font that can be used. -/
inductive Fault where
  /-- The bytes do not begin as a font does. -/
  | unknownMagic
  /-- The directory is cut off. -/
  | malformed
  /-- The file is a collection without fonts. -/
  | noFace
  /-- The table of general facts is missing or malformed. -/
  | noHead
  /-- The table of horizontal measures is missing or malformed. -/
  | noHorizontalHeader
  /-- The table that counts the glyphs is missing or malformed. -/
  | noMaximums
deriving DecidableEq, Repr

def Fault.message : Fault → String
  | .unknownMagic => "unknown magic"
  | .malformed => "malformed font"
  | .noFace => "face index is out of bounds"
  | .noHead => "the head table is missing or malformed"
  | .noHorizontalHeader => "the hhea table is missing or malformed"
  | .noMaximums => "the maxp table is missing or malformed"

/-- What kind of file bytes begin as. -/
inductive Kind where
  | font
  | collection
deriving DecidableEq

/-- The kind of file that begins at an offset. -/
def kind? (data : ByteArray) (at_ : Nat) : Option Kind :=
  match long? data at_ with
  | some 0x00010000 => some .font
  | some 0x74727565 => some .font
  | some 0x4F54544F => some .font
  | some 0x74746366 => some .collection
  | _ => none

/-- Where the directory of the first font begins, behind the mark of its kind. -/
def directoryStart (data : ByteArray) : Except Fault Nat :=
  match kind? data 0 with
  | none => .error .unknownMagic
  | some .font => .ok 4
  | some .collection =>
    match long? data 8 with
    | none => .error .malformed
    | some count =>
      if !holds data 12 (count * 4) then .error .malformed
      else
        match if count = 0 then none else long? data 12 with
        | none => .error .noFace
        | some offset =>
          if offset < 12 + count * 4 ∨ data.size < offset then .error .malformed
          else
            match kind? data offset with
            | some .font => .ok (offset + 4)
            | _ => .error .unknownMagic

/-- The directory of a font: for each table its tag and, if it lies in the file, its bytes. -/
abbrev Directory := List (Nat × Option ByteArray)

/-- The entry of the directory at an offset. -/
def record? (data : ByteArray) (at_ : Nat) : Option (Nat × Option ByteArray) := do
  let tag ← long? data at_
  let offset ← long? data (at_ + 8)
  let length ← long? data (at_ + 12)
  return (tag, slice? data offset length)

/-- The directory of the first font of a file. -/
def directory (data : ByteArray) : Except Fault Directory := do
  let start ← directoryStart data
  match word? data start with
  | none => .error .malformed
  | some count =>
    if holds data (start + 8) (count * 16) then
      .ok ((List.range count).filterMap fun i => record? data (start + 8 + i * 16))
    else .error .malformed

/-- The number that the four letters of a tag stand for. -/
def tagOf (letters : String) : Nat :=
  letters.toList.foldl (fun tag c => tag * 256 + c.toNat) 0

/-- The table with a tag; of several the last counts. -/
def Directory.table? (directory : Directory) (letters : String) : Option ByteArray :=
  (directory.reverse.lookup (tagOf letters)).join

end Folio.Sfnt
