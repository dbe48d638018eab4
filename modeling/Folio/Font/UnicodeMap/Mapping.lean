import Folio.Text.Utf16

/-!
# Mappings from codes to text

A mapping leads from the codes of a font to units of UTF-16. It holds runs of codes that lie apart:
what is put in replaces what was there for its codes, and runs next to each other with the same
target become one. Where a target counts up, it counts from the start of its run.
-/

set_option autoImplicit false

namespace Folio.UnicodeMap

/-- What the codes of a run stand for. -/
inductive Target where
  /-- One unit each: the code plus an offset. -/
  | shifted (offset : Nat)
  /-- Several units each, the last of which counts up from code to code. -/
  | counted (units : List Nat)
  /-- The units that stand in a list, from the first code on. -/
  | listed (targets : List (List Nat))
deriving DecidableEq, Repr

namespace Target

/-- The target for which a code stands for units, and the codes behind it for what follows them. -/
def ofUnits (code : Nat) : List Nat → Target
  | [unit] => .shifted ((unit + 0x10000 - code) % 0x10000)
  | units => .counted units

/-- The target for which codes stand for a list of units each. A list of one is counted on. -/
def ofList (first : Nat) : List (List Nat) → Target
  | [units] => ofUnits first units
  | targets => .listed targets

/-- Adds to the last of some units. -/
def advance (count : Nat) : List Nat → List Nat
  | [] => []
  | [unit] => [(unit + count) % 0x10000]
  | unit :: units => unit :: advance count units

/-- The units of a code in a run that starts with `first`. -/
def units? (target : Target) (first code : Nat) : Option (List Nat) :=
  match target with
  | .shifted offset => some [(code + offset) % 0x10000]
  | .counted units => some (advance (code - first) units)
  | .listed targets => targets[code - first]?

end Target

/-- Codes that lie next to each other, and what they stand for. -/
structure Run where
  first : Nat
  last : Nat
  target : Target
  first_le_last : first ≤ last := by omega
deriving Repr

namespace Run

def contains (run : Run) (code : Nat) : Bool :=
  run.first ≤ code && code ≤ run.last

/-- Whether two runs have the same target and no code lies between them. -/
def continues (a b : Run) : Bool :=
  a.target = b.target && a.first ≤ b.last + 1 && b.first ≤ a.last + 1

/-- The run from the first code of two runs to the last. -/
def join (a b : Run) : Run where
  first := min a.first b.first
  last := max a.last b.last
  target := a.target
  first_le_last := by
    have := a.first_le_last
    omega

/-- What a run keeps when the codes of another are taken from it. -/
def without (a b : Run) : List Run :=
  have ha := a.first_le_last
  let before := if h : a.first < b.first then
      [{ a with last := min a.last (b.first - 1), first_le_last := by omega }]
    else []
  let behind := if h : b.last < a.last then
      [{ a with first := max a.first (b.last + 1), first_le_last := by omega }]
    else []
  before ++ behind

end Run

/-- The runs of a mapping, none of which share a code. -/
abbrev Mapping := List Run

namespace Mapping

/-- Puts a run into a mapping. -/
def insert (run : Run) (mapping : Mapping) : Mapping :=
  let (same, others) := mapping.partition run.continues
  same.foldl Run.join run :: others.flatMap (·.without run)

/-- The units that a code stands for. -/
def units? (mapping : Mapping) (code : Nat) : Option (List Nat) := do
  let run ← mapping.find? (·.contains code)
  run.target.units? run.first code

end Mapping

end Folio.UnicodeMap
