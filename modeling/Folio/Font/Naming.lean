import Folio.Font.Sfnt
import Folio.Text.Utf16

/-!
# Names of a font

A font carries names of several kinds in several languages. The one that programs know it by is its
PostScript name.
-/

set_option autoImplicit false

namespace Folio.Sfnt

/-- A name in the table of names: its kind, and its text if it is written in Unicode. -/
structure FontName where
  kind : Nat
  text? : Option String

/-- The name whose record is at an offset, with its text in the storage that begins at `storage`. -/
def fontName? (table : ByteArray) (storage at_ : Nat) : Option FontName := do
  let platform ← word? table at_
  let encoding ← word? table (at_ + 2)
  let kind ← word? table (at_ + 6)
  let length ← word? table (at_ + 8)
  let offset ← word? table (at_ + 10)
  if 4 < platform then none
  let text ← slice? table (storage + offset) length
  let unicode := platform = 0 ∨ platform = 3 ∧ encoding ≤ 1
  let units := (List.range (length / 2)).filterMap fun i => word? text (i * 2)
  return { kind, text? := if unicode then (Text.Utf16.decode? units).map String.ofList else none }

/-- The names of a table, up to the first one that cannot be read. -/
def fontNames (table : ByteArray) : List FontName :=
  (names? table).getD []
where
  /-- The names of a table that is not cut off. -/
  names? (table : ByteArray) : Option (List FontName) := do
    let version ← word? table 0
    let count ← word? table 2
    let storage ← word? table 4
    let start ← match version with
      | 0 => some 6
      | 1 => do
        let tags ← word? table 6
        if tags * 4 < 0x10000 then some (8 + tags * 4) else none
      | _ => none
    if !holds table start (count * 12) then none
    let storage := max storage (start + count * 12)
    if table.size < storage then none
    return readUpTo table storage start count
  /-- At most `count` names from an offset on. -/
  readUpTo (table : ByteArray) (storage at_ : Nat) : Nat → List FontName
    | 0 => []
    | count + 1 =>
      match fontName? table storage at_ with
      | some name => name :: readUpTo table storage (at_ + 12) count
      | none => []

/-- The kind of name that programs know a font by. -/
def postScriptKind : Nat := 6

/-- The name that programs know the font by. -/
def postScriptName? (table : ByteArray) : Option String :=
  (fontNames table).findSome? fun name => if name.kind = postScriptKind then name.text? else none

end Folio.Sfnt
