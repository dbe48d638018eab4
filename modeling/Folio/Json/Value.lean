import Folio.Sorted

/-!
# JSON values

Objects keep their members in ascending order of the keys, each key once; the value written last for
a key is the one that counts. Numbers are integers when they are written as integers that fit a
machine word, and binary numbers of 64 bits otherwise.
-/

set_option autoImplicit false

namespace Folio.Json

/-- A number as data holds it. -/
inductive Number where
  | integer (n : Int)
  | float (x : Float)
deriving DecidableEq

/-- A JSON value. -/
inductive Value where
  | null
  | bool (b : Bool)
  | number (n : Number)
  | string (text : String)
  | array (items : List Value)
  | object (members : List (String × Value))

instance : Inhabited Value := ⟨.null⟩

/-- The members of an object, in ascending order of the keys. -/
abbrev Members := List (String × Value)

/-- Puts a value under a key, in place of the value that was there. -/
def Members.insert (key : String) (value : Value) (members : Members) : Members :=
  Sorted.insert key value members

/-- The value under a key. -/
def Members.get? (members : Members) (key : String) : Option Value :=
  members.lookup key

/-- The members in the order in which they are written, put in one after the other. -/
def Members.ofList (entries : List (String × Value)) : Members :=
  Sorted.ofList entries

namespace Value

def ofNat (n : Nat) : Value := .number (.integer n)

/-- The object with the given entries. -/
def ofEntries (entries : List (String × Value)) : Value :=
  .object (Members.ofList entries)

def string? : Value → Option String
  | .string text => some text
  | _ => none

def array? : Value → Option (List Value)
  | .array items => some items
  | _ => none

def object? : Value → Option Members
  | .object members => some members
  | _ => none

/-- The value of a member; none if the value is no object. -/
def member? (value : Value) (key : String) : Option Value :=
  value.object?.bind fun members => Members.get? members key

end Value

end Folio.Json
