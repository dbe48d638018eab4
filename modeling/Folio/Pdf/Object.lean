import Folio.Number.Binary

/-!
# PDF objects

The values that a PDF document is made of. Dictionaries keep each key once, and every reference
leads to an object by its number.
-/

set_option autoImplicit false

namespace Folio.Pdf

abbrev Bytes := List UInt8

/-- A PDF object. -/
inductive Object where
  | null
  | bool (value : Bool)
  | integer (value : Int)
  | real (value : Float32)
  | name (text : String)
  /-- A string that is written between parentheses. -/
  | string (bytes : Bytes)
  /-- A string that is written in hexadecimal digits. -/
  | hexString (bytes : Bytes)
  | array (items : List Object)
  | dictionary (entries : List (String × Object))
  | stream (entries : List (String × Object)) (content : Bytes)
  | reference (number : Nat)

instance : Inhabited Object := ⟨.null⟩

/-- How many numbers there are for the objects of one generation. -/
def generationSize : Nat := 0x100000000

/-- The number by which a document knows an object of a file, where the object has a number and a
generation; numbers of the generation zero stay as they are. -/
def objectNumber (number generation : Nat) : Nat :=
  generation * generationSize + number

abbrev Dictionary := List (String × Object)

namespace Dictionary

/-- Sets a key, in place if it is there already. -/
def set (dict : Dictionary) (key : String) (value : Object) : Dictionary :=
  match dict with
  | [] => [(key, value)]
  | entry :: rest => if entry.1 = key then (key, value) :: rest else entry :: set rest key value

end Dictionary

namespace Object

def name? : Object → Option String
  | .name text => some text
  | _ => none

def array? : Object → Option (List Object)
  | .array items => some items
  | _ => none

/-- The entries of a dictionary; a stream does not count as one. -/
def dictionary? : Object → Option Dictionary
  | .dictionary entries => some entries
  | _ => none

def reference? : Object → Option Nat
  | .reference number => some number
  | _ => none

/-- The value of a number. -/
def number? : Object → Option Float32
  | .integer value => some (Binary32.ofInt value)
  | .real value => some value
  | _ => none

mutual

/-- The number of every object that an object refers to. -/
def references : Object → List Nat
  | .reference number => [number]
  | .array items => referencesOfItems items
  | .dictionary entries => referencesOfEntries entries
  | .stream entries _ => referencesOfEntries entries
  | _ => []

def referencesOfItems : List Object → List Nat
  | [] => []
  | item :: items => item.references ++ referencesOfItems items

def referencesOfEntries : List (String × Object) → List Nat
  | [] => []
  | (_, value) :: entries => value.references ++ referencesOfEntries entries

end

end Object

end Folio.Pdf
