import Std.Data.HashMap
import Folio.Font.Sfnt

/-!
# Character maps

A font maps characters to glyphs in subtables of several formats. Of the subtables for Unicode the
first that has a glyph for a character counts.
-/

set_option autoImplicit false

namespace Folio.Sfnt

/-- A subtable: how it is written and its bytes. -/
structure Subtable where
  platform : Nat
  encoding : Nat
  format : Nat
  data : ByteArray

namespace Subtable

/-- How many segments a subtable of format 4 has. -/
def segmentCount (data : ByteArray) : Nat :=
  (word? data 6).getD 0 / 2

/-- How many subheaders a subtable of format 2 has. -/
def subheaderCount (data : ByteArray) : Nat :=
  ((List.range 256).map fun i => (word? data (6 + i * 2)).getD 0 / 8).foldl max 0 + 1

/-- Whether the bytes of a subtable hold what its format says. -/
def complete (format : Nat) (data : ByteArray) : Bool :=
  match format with
  | 0 => holds data 6 256
  | 2 => holds data 6 512 && holds data 518 (subheaderCount data * 8)
  | 4 =>
    match word? data 6 with
    | some doubled => 2 ≤ doubled && holds data 14 (doubled / 2 * 8 + 2)
    | none => false
  | 6 =>
    match word? data 8 with
    | some count => holds data 10 (count * 2)
    | none => false
  | 8 => true
  | 10 =>
    match long? data 16 with
    | some count => holds data 20 (count * 2)
    | none => false
  | 12 | 13 =>
    match long? data 12 with
    | some count => holds data 16 (count * 12)
    | none => false
  | 14 =>
    match long? data 6 with
    | some count => holds data 10 (count * 11)
    | none => false
  | _ => false

/-- The subtable whose record is at an offset. -/
def ofRecord? (table : ByteArray) (at_ : Nat) : Option Subtable := do
  let platform ← word? table at_
  let encoding ← word? table (at_ + 2)
  let offset ← long? table (at_ + 4)
  if 4 < platform ∨ table.size < offset then none
  let data := table.extract offset table.size
  let format ← word? data 0
  if complete format data then some { platform, encoding, format, data } else none

/-- Whether a subtable maps Unicode. -/
def isUnicode (s : Subtable) : Bool :=
  s.platform = 0 ||
    s.platform = 3 && (s.encoding = 1 || s.encoding = 10 && (s.format = 12 || s.format = 13))

/-! ### Segments of 16 bits -/

/-- The glyph of a character in a segment of format 4. -/
def segmentGlyph? (data : ByteArray) (count index code start : Nat) : Option Nat := do
  let delta ← word? data (16 + count * 4 + index * 2)
  let position := 16 + count * 6 + index * 2
  let offset ← word? data position
  if offset = 0 then return (code + delta) % 0x10000
  if offset = 0xFFFF then none
  let distance := (code - start) * 2
  if 0x10000 ≤ distance then none
  let value ← word? data ((position + distance + offset) % 0x10000)
  if value = 0 then none
  let glyph := (value + delta) % 0x10000
  if glyph < 0x8000 then return glyph
  none

/-- Looks for the segment of a character between two indices, by halving. -/
def findSegment? (data : ByteArray) (count code low high : Nat) : Option Nat :=
  if low < high then
    let index := (low + high) / 2
    match word? data (14 + index * 2), word? data (16 + count * 2 + index * 2) with
    | some last, some first =>
      if last < code then findSegment? data count code (index + 1) high
      else if code < first then findSegment? data count code low index
      else segmentGlyph? data count index code first
    | _, _ => none
  else none
termination_by high - low

/-- The characters of the segments from an index on, up to the mark of their end. -/
def segmentCodes (data : ByteArray) (count : Nat) : Nat → Nat → List Nat
  | 0, _ => []
  | fuel + 1, index =>
    match word? data (16 + count * 2 + index * 2), word? data (14 + index * 2) with
    | some first, some last =>
      if first = last ∧ first = 0xFFFF then []
      else List.range' first (last + 1 - first) ++ segmentCodes data count fuel (index + 1)
    | _, _ => []

/-! ### Groups -/

/-- A group of characters in a row. -/
structure Group where
  first : Nat
  last : Nat
  glyph : Nat

/-- The groups of formats 12 and 13. -/
def groups (data : ByteArray) : Array Group :=
  (Array.range ((long? data 12).getD 0)).map fun i =>
    let at_ := 16 + i * 12
    { first := (long? data at_).getD 0, last := (long? data (at_ + 4)).getD 0
      glyph := (long? data (at_ + 8)).getD 0 }

/-- Where a search by halving for the group of a character ends: the group at `base` of `size`
groups that remain. -/
def searchGroup (groups : Array Group) (code base size : Nat) : Nat :=
  if 1 < size then
    let half := size / 2
    let base := match groups[base + half]? with
      | some group => if code < group.first then base else base + half
      | none => base
    searchGroup groups code base (size - half)
  else base
termination_by size

/-- The glyph of a character in groups whose glyphs follow each other. -/
def sequentialGlyph? (groups : Array Group) (code : Nat) : Option Nat := do
  let group ← groups[searchGroup groups code 0 groups.size]?
  if code < group.first ∨ group.last < code then none
  if UInt32.size ≤ group.glyph + code then none
  let glyph := group.glyph + code - group.first
  if glyph < 0x10000 then some glyph else none

/-- The glyph of a character in groups of one glyph each. -/
def commonGlyph? (groups : Array Group) (code : Nat) : Option Nat := do
  let group ← groups.find? fun group => group.first ≤ code && code ≤ group.last
  if group.glyph < 0x10000 then some group.glyph else none

/-- The greatest code point. -/
def lastCode : Nat := 0x10FFFF

/-- The characters of groups. -/
def groupCodes (groups : Array Group) : List Nat :=
  groups.toList.flatMap fun group =>
    List.range' group.first (min group.last lastCode + 1 - group.first)

/-! ### Two-byte codes -/

/-- The fields of a subheader of format 2: first code, how many codes, difference, offset. -/
def subheader? (data : ByteArray) (index : Nat) : Option (Nat × Nat × Nat × Nat) := do
  if subheaderCount data ≤ index then none
  let at_ := 518 + index * 8
  return (← word? data at_, ← word? data (at_ + 2), ← word? data (at_ + 4), ← word? data (at_ + 6))

/-- The glyph of a code of one or two bytes. -/
def twoByteGlyph? (data : ByteArray) (code : Nat) : Option Nat := do
  let index ← if code < 0xFF then some 0 else (word? data (6 + code / 256 * 2)).map (· / 8)
  let (first, count, delta, offset) ← subheader? data index
  let low := code % 256
  if 0x10000 ≤ first + count then none
  if low < first ∨ first + count ≤ low then none
  let value ← word? data (518 + 8 * (index + 1) - 2 + offset + (low - first) * 2)
  if value = 0 then none
  let sum := (value : Int) + signed delta
  let glyph := Int.tmod sum 65536
  if 0 ≤ glyph then some glyph.toNat else none

/-- The codes whose first byte is `high` or greater. -/
def twoByteCodes (data : ByteArray) : Nat → Nat → List Nat
  | 0, _ => []
  | fuel + 1, high =>
    match (word? data (6 + high * 2)).bind fun key =>
        (subheader? data (key / 8)).map fun header => (key / 8, header) with
    | none => []
    | some (index, first, count, _, _) =>
      if index = 0 then
        if 0x10000 ≤ first + count then []
        else (if first ≤ high ∧ high < first + count then [high] else []) ++
          twoByteCodes data fuel (high + 1)
      else
        let base := first + high * 256
        if 0x10000 ≤ base then []
        else if 0x10000 < base + count then List.range' base (0x10000 - base)
        else List.range' base count ++ twoByteCodes data fuel (high + 1)

/-! ### All formats -/

/-- The glyph of a character in a table of consecutive glyphs. -/
def trimmedGlyph? (data : ByteArray) (first count start code : Nat) : Option Nat :=
  if first ≤ code ∧ code < first + count then word? data (start + (code - first) * 2) else none

/-- The glyph of each code point, as the format of a subtable finds it. -/
def lookup (s : Subtable) : Nat → Option Nat :=
  match s.format with
  | 0 => fun code =>
    if code < 256 then (byte? s.data (6 + code)).bind fun g => if g = 0 then none else some g
    else none
  | 2 => fun code => if code < 0x10000 then twoByteGlyph? s.data code else none
  | 4 =>
    let count := segmentCount s.data
    fun code => if code < 0x10000 then findSegment? s.data count code 0 count else none
  | 6 =>
    let first := (word? s.data 6).getD 0
    let count := (word? s.data 8).getD 0
    fun code => if code < 0x10000 then trimmedGlyph? s.data first count 10 code else none
  | 10 =>
    let first := (long? s.data 12).getD 0
    let count := (long? s.data 16).getD 0
    trimmedGlyph? s.data first count 20
  | 12 => let all := groups s.data; sequentialGlyph? all
  | 13 => let all := groups s.data; commonGlyph? all
  | _ => fun _ => none

/-- The code points that a subtable is about. -/
def codes (s : Subtable) : List Nat :=
  match s.format with
  | 0 => (List.range 256).filter fun code => byte? s.data (6 + code) ≠ some 0
  | 2 => twoByteCodes s.data 256 0
  | 4 => let count := segmentCount s.data; segmentCodes s.data count count 0
  | 6 =>
    let first := (word? s.data 6).getD 0
    List.range' first (min ((word? s.data 8).getD 0) (0x10000 - first))
  | 10 =>
    let first := (long? s.data 12).getD 0
    List.range' first (min ((long? s.data 16).getD 0) (lastCode + 1 - first))
  | 12 | 13 => groupCodes (groups s.data)
  | _ => []

end Subtable

/-- The subtables of a character map, up to the first one that cannot be read. -/
def subtables (table : ByteArray) : List Subtable :=
  match word? table 2 with
  | none => []
  | some count => if holds table 4 (count * 8) then readUpTo table 4 count else []
where
  /-- At most `count` subtables whose records begin at an offset. -/
  readUpTo (table : ByteArray) (at_ : Nat) : Nat → List Subtable
    | 0 => []
    | count + 1 =>
      match Subtable.ofRecord? table at_ with
      | some s => s :: readUpTo table (at_ + 8) count
      | none => []

/-- The glyph of each character, by its code point. -/
abbrev GlyphMap := Std.HashMap Nat UInt16

/-- Whether a code point is a character: surrogates are none. -/
def isCharacter (code : Nat) : Bool :=
  code < 0xD800 || 0xE000 ≤ code && code ≤ Subtable.lastCode

/-- Adds the characters of a subtable that have a glyph and are not mapped yet. -/
def GlyphMap.addSubtable (map : GlyphMap) (s : Subtable) : GlyphMap :=
  let glyph? := s.lookup
  s.codes.foldl (fun map code =>
    match glyph? code with
    | some glyph =>
      if glyph ≠ 0 ∧ isCharacter code then map.insertIfNew code (UInt16.ofNat glyph)
      else map
    | none => map) map

/-- The glyphs of the characters that a character map covers. -/
def glyphMap (table : ByteArray) : GlyphMap :=
  ((subtables table).filter Subtable.isUnicode).foldl GlyphMap.addSubtable ∅

end Folio.Sfnt
