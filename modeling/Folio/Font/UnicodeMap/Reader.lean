import Folio.Font.UnicodeMap.Mapping
import Folio.Pdf.Reading

/-!
# Reading maps from glyphs to Unicode

The text of a map is a fixed frame around its sections, with space between any two words. A section
names its kind before and behind its lines: the codes that occur, single codes with the units that
they stand for, or ranges of codes with the units of the first or of each. Codes have four
hexadecimal digits, as has every unit. The number in front of a section is not checked.
-/

set_option autoImplicit false

namespace Folio.UnicodeMap

open Folio.Pdf

/-- Why a map cannot be used. -/
inductive Fault where
  /-- The text is not that of a map. -/
  | malformed
  /-- A range ends before it starts. -/
  | backwardRange
deriving DecidableEq, Repr

def Fault.message : Fault → String
  | .malformed => "Could not parse ToUnicodeCMap: Error!"
  | .backwardRange => "Invalid code range given!"

/-- A section of a map. -/
inductive Section where
  /-- The ranges of codes that occur. -/
  | codes (ranges : List (Nat × Nat))
  /-- Codes and the units that each stands for. -/
  | singles (entries : List (Nat × List Nat))
  /-- First and last codes, and the units of the first code or of each. -/
  | ranges (entries : List ((Nat × Nat) × List (List Nat)))
deriving DecidableEq, Repr

/-! ### Words -/

/-- What follows space, of which there must be some. -/
def skipGap? (bytes : Bytes) : Option Bytes :=
  let rest := skipContentSpace bytes
  if rest.length < bytes.length then some rest else none

/-- What follows a word and the space behind it. -/
def skipToken? (word : String) (bytes : Bytes) : Option Bytes := do
  skipGap? (← skipWord? word bytes)

/-- What follows several words, each with space behind it. -/
def skipTokens? (words : List String) (bytes : Bytes) : Option Bytes :=
  words.foldlM (fun bytes word => skipToken? word bytes) bytes

/-- What a reader finds before space. -/
def spaced {α : Type} (reader : Reader α) : Reader α := fun bytes => do
  let (found, rest) ← reader bytes
  some (found, ← skipGap? rest)

/-- Everything that a reader finds, one behind the other; `count` bounds how much is read. -/
def readWhile {α : Type} (reader : Reader α) : Nat → Bytes → List α × Bytes
  | 0, bytes => ([], bytes)
  | count + 1, bytes =>
    match reader bytes with
    | none => ([], bytes)
    | some (found, rest) =>
      let (more, rest) := readWhile reader count rest
      (found :: more, rest)

/-- What a reader finds one behind the other, at least once. -/
def readMany {α : Type} (reader : Reader α) : Reader (List α) := fun bytes =>
  match readWhile reader bytes.length bytes with
  | ([], _) => none
  | found => some found

/-! ### Codes and units -/

/-- The units in groups of four digits, up to the end of their string. -/
def readUnitsFrom : Reader (List Nat)
  | 0x3E :: rest => some ([], rest)
  | a :: b :: c :: d :: rest => do
    let unit := (((← hexValue? a) * 16 + (← hexValue? b)) * 16 + (← hexValue? c)) * 16 +
      (← hexValue? d)
    let (units, rest) ← readUnitsFrom rest
    some (unit :: units, rest)
  | _ => none

/-- A string of at least one unit. -/
def readUnits : Reader (List Nat)
  | 0x3C :: rest =>
    match readUnitsFrom rest with
    | some ([], _) => none
    | found => found
  | _ => none

/-- A string of one unit. -/
def readCode : Reader Nat := fun bytes =>
  match readUnits bytes with
  | some ([code], rest) => some (code, rest)
  | _ => none

/-- The first and the last code of a range. -/
def readCodes : Reader (Nat × Nat) := fun bytes => do
  let (first, rest) ← spaced readCode bytes
  let (last, rest) ← readCode rest
  some ((first, last), rest)

/-- Strings between brackets, with space between them. -/
def readArray : Reader (List (List Nat))
  | 0x5B :: rest => do
    let next : Reader (List Nat) := fun bytes => do readUnits (← skipGap? bytes)
    let (target, rest) ← readUnits (skipContentSpace rest)
    let (targets, rest) := readWhile next rest.length rest
    some (target :: targets, ← skipWord? "]" (skipContentSpace rest))
  | _ => none

/-- The targets of a range: units for the first code, or a list with those of each. -/
def readTargets : Reader (List (List Nat)) :=
  firstOf [
    fun bytes => (readUnits bytes).map fun (units, rest) => ([units], rest),
    readArray]

/-! ### Sections -/

/-- The line of a single code. -/
def readSingle : Reader (Nat × List Nat) := fun bytes => do
  let (code, rest) ← spaced readCode bytes
  let (units, rest) ← spaced readUnits rest
  some ((code, units), rest)

/-- The line of a range of codes. -/
def readRange : Reader ((Nat × Nat) × List (List Nat)) := fun bytes => do
  let (codes, rest) ← spaced readCodes bytes
  let (targets, rest) ← spaced readTargets rest
  some ((codes, targets), rest)

/-- The lines of a section of some kind. -/
def readLines {α : Type} (kind : String) (line : Reader α) : Reader (List α) := fun bytes => do
  let (_, rest) ← spaced readNatural bytes
  let (lines, rest) ← readMany line (← skipToken? ("begin" ++ kind) rest)
  some (lines, ← skipToken? ("end" ++ kind) rest)

/-- A section of any kind. -/
def readSection : Reader Section :=
  firstOf [
    fun bytes =>
      (readLines "codespacerange" (spaced readCodes) bytes).map fun (lines, rest) =>
        (.codes lines, rest),
    fun bytes =>
      (readLines "bfchar" readSingle bytes).map fun (lines, rest) => (.singles lines, rest),
    fun bytes =>
      (readLines "bfrange" readRange bytes).map fun (lines, rest) => (.ranges lines, rest)]

/-- The names that are defined in front of the sections. -/
def definedNames : List String := ["CIDSystemInfo", "CMapName", "CMapType"]

/-- The definition of a name. -/
def readDefinition : Reader String := fun bytes => do
  let (name, rest) ← spaced readName bytes
  let (_, rest) ← spaced readObject rest
  if definedNames.contains name then some (name, ← skipToken? "def" rest) else none

/-- The sections of a map. -/
def readSections (bytes : Bytes) : Option (List Section) := do
  let rest ← skipTokens? ["/CIDInit", "/ProcSet", "findresource", "begin"] bytes
  let (_, rest) ← spaced readNatural rest
  let rest ← skipTokens? ["dict", "begin", "begincmap"] rest
  let (_, rest) := readWhile readDefinition rest.length rest
  let (sections, rest) ← readMany readSection rest
  let rest ← skipTokens?
    ["endcmap", "CMapName", "currentdict", "/CMap", "defineresource", "pop", "end"] rest
  let _ ← skipWord? "end" rest
  some sections

/-! ### Mappings -/

/-- Puts a range of codes into a mapping. -/
def addRange (mapping : Mapping) (first last : Nat) (targets : List (List Nat)) :
    Except Fault Mapping :=
  if h : first ≤ last then
    .ok (mapping.insert { first, last, target := .ofList first targets, first_le_last := h })
  else .error .backwardRange

/-- Puts the lines of a section into a mapping. -/
def addSection (mapping : Mapping) : Section → Except Fault Mapping
  | .codes _ => .ok mapping
  | .singles entries =>
    entries.foldlM (fun mapping (code, units) => addRange mapping code code [units]) mapping
  | .ranges entries =>
    entries.foldlM (fun mapping ((first, last), targets) => addRange mapping first last targets)
      mapping

/-- The mapping that the text of a map holds. -/
def read (content : Bytes) : Except Fault Mapping :=
  match readSections content with
  | none => .error .malformed
  | some sections => sections.foldlM addSection []

/-- The text that codes of two bytes stand for; a code that a mapping lacks is replaced. -/
def decode (mapping : Mapping) (bytes : Bytes) : List Char :=
  Text.Utf16.decodeMarked <| (Text.Utf16.ofBytes bytes).flatMap fun code =>
    ((mapping.units? code).getD [Text.replacement.toNat]).flatMap Text.Utf16.toBytes

end Folio.UnicodeMap
