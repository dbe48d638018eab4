import Folio.Json.Printer
import Folio.Json.Reader
import Folio.Text.Quoted

/-!
# Decoding JSON into data

A decoder says how a piece of data is obtained, both from a value in memory and from a text as it is
read. The two agree on what they accept; an error found while reading also says where.

A record is an object whose members are the fields of a structure; members that are no fields are
passed over. An array of the fields in their order is accepted in its place.
-/

set_option autoImplicit false

namespace Folio.Json

/-- Why well-formed data is not what was asked for. -/
inductive Mismatch where
  | invalidType (found expected : String)
  | invalidValue (found expected : String)
  | invalidLength (length : Nat) (expected : String)
  | unknownVariant (name : String) (known : List String)
  | missingField (name : String)
  | duplicateField (name : String)
  | invalidKey
  /-- A number inside a key is wrong, at a place in the key. -/
  | inKey (error : ReadError)
deriving DecidableEq, Repr

/-- The words for a mismatch. -/
def Mismatch.message : Mismatch → String
  | .invalidType found expected => s!"invalid type: {found}, expected {expected}"
  | .invalidValue found expected => s!"invalid value: {found}, expected {expected}"
  | .invalidLength length expected => s!"invalid length {length}, expected {expected}"
  | .unknownVariant name known =>
    s!"unknown variant `{name}`, expected one of " ++
      ", ".intercalate (known.map fun name => s!"`{name}`")
  | .missingField name => s!"missing field `{name}`"
  | .duplicateField name => s!"duplicate field `{name}`"
  | .invalidKey => "invalid value: expected key to be a number in quotes"
  | .inKey error => error.message

/-- How a number is described in a message. -/
def Number.describe : Number → String
  | .integer n => "integer `" ++ String.ofList (integerText n) ++ "`"
  | .float x => "floating point `" ++ String.ofList (float64Text x) ++ "`"

/-- How a value is described in a message. -/
def Value.describe : Value → String
  | .null => "null"
  | .bool b => "boolean `" ++ (if b then "true" else "false") ++ "`"
  | .number n => n.describe
  | .string text => "string " ++ Text.quoted text
  | .array _ => "sequence"
  | .object _ => "map"

/-- How a piece of data is obtained from a value, and from a text. -/
structure Decoder (α : Type) where
  ofValue : Value → Except Mismatch α
  read : Reader α

namespace Decoder

/-- An error about data that was taken up to the cursor. -/
def fail {α : Type} (c : Cursor) (mismatch : Mismatch) : Except ReadError α :=
  .error ⟨.mismatch mismatch.message, c.position⟩

/-- An error about data whose end was found by looking at the next character. -/
def failLooking {α : Type} (c : Cursor) (mismatch : Mismatch) : Except ReadError α :=
  .error ⟨.mismatch mismatch.message, c.reported⟩

/-- Reads the next value only to tell that it is not what was expected; of an array or an object
just the bracket is looked at. -/
def readOther {α : Type} (expected : String) : Reader α := fun c => do
  let wrong (found : String) := Mismatch.invalidType found expected
  match c.rest with
  | [] => c.failHere .eofInValue
  | '"' :: _ =>
    let (text, c) ← readString c
    fail c (wrong (Value.string text).describe)
  | '[' :: _ => failLooking c (wrong "sequence")
  | '\x7b' :: _ => failLooking c (wrong "map")
  | next :: _ =>
    match word? next with
    | some (word, value) =>
      let c ← readWord word c
      fail c (wrong value.describe)
    | none =>
      if next = '-' ∨ next.isDigit then
        let (n, c) ← readSigned c
        failLooking c (wrong n.describe)
      else c.failNext .expectedValue

/-- A truth value. -/
def bool : Decoder Bool where
  ofValue
    | .bool b => .ok b
    | other => .error (.invalidType other.describe "a boolean")
  read c := do
    let c := c.skip
    match c.rest with
    | 't' :: _ => .ok (true, ← readWord "true".toList c)
    | 'f' :: _ => .ok (false, ← readWord "false".toList c)
    | _ => readOther "a boolean" c

/-- A string, which `expected` names in messages. -/
def stringAs (expected : String) : Decoder String where
  ofValue
    | .string text => .ok text
    | other => .error (.invalidType other.describe expected)
  read c :=
    let c := c.skip
    match c.rest with
    | '"' :: _ => readString c
    | _ => readOther expected c

def string : Decoder String := stringAs "a string"

/-- A number, as far as `ofNumber` accepts it. -/
def numberAs {α : Type} (expected : String) (ofNumber : Number → Except Mismatch α) :
    Decoder α where
  ofValue
    | .number n => ofNumber n
    | other => .error (.invalidType other.describe expected)
  read c := do
    let c := c.skip
    let isNumber := match c.rest with
      | next :: _ => next == '-' || next.isDigit
      | [] => false
    if isNumber then
      let (n, c) ← readSigned c
      match ofNumber n with
      | .ok value => .ok (value, c)
      | .error mismatch => failLooking c mismatch
    else readOther expected c

/-- An integer between two bounds. -/
def integerIn (expected : String) (low high : Int) : Decoder Int :=
  numberAs expected fun
    | .integer n =>
      if low ≤ n ∧ n ≤ high then .ok n
      else .error (.invalidValue (Number.integer n).describe expected)
    | n => .error (.invalidType n.describe expected)

/-- A signed integer of 64 bits. -/
def int64 : Decoder Int := integerIn "i64" (-0x8000000000000000) 0x7FFFFFFFFFFFFFFF

/-- A decoder followed by a function. -/
def map {α β : Type} (f : α → β) (d : Decoder α) : Decoder β where
  ofValue v := (d.ofValue v).map f
  read c := (d.read c).map fun (a, c) => (f a, c)

/-- An unsigned integer of 64 bits. -/
def nat64 : Decoder Nat := (integerIn "u64" 0 0xFFFFFFFFFFFFFFFF).map Int.toNat

/-- An unsigned integer of 32 bits. -/
def nat32 : Decoder Nat := (integerIn "u32" 0 0xFFFFFFFF).map Int.toNat

/-- A number rounded to 32 bits. -/
def float32 : Decoder Float32 :=
  numberAs "f32" fun
    | .integer n => .ok (Binary32.ofInt n)
    | .float x => .ok (Binary32.ofFloat x)

/-- Something that may be `null`. -/
def optional {α : Type} (d : Decoder α) : Decoder (Option α) where
  ofValue
    | .null => .ok none
    | value => (d.ofValue value).map some
  read c := do
    let c := c.skip
    match c.rest with
    | 'n' :: _ => .ok (none, ← readWord "null".toList c)
    | _ => (d.read c).map fun (a, c) => (some a, c)

/-- An array. -/
def list {α : Type} (d : Decoder α) : Decoder (List α) where
  ofValue
    | .array items => items.mapM d.ofValue
    | other => .error (.invalidType other.describe "a sequence")
  read c :=
    let c := c.skip
    match c.rest with
    | '[' :: _ => readItems d.read c.rest.length [] (c.take '[')
    | _ => readOther "a sequence" c

/-- One of several names. It may also be written as an object with the name as its only key and
`null` as the value. -/
def variant {α : Type} (known : List (String × α)) : Decoder α where
  ofValue value := do
    let find (name : String) : Except Mismatch α :=
      match known.lookup name with
      | some a => .ok a
      | none => .error (.unknownVariant name (known.map Prod.fst))
    match value with
    | .string name => find name
    | .object [(name, content)] =>
      let a ← find name
      match content with
      | .null => .ok a
      | other => .error (.invalidType other.describe "unit")
    | .object _ => .error (.invalidValue "map" "map with a single key")
    | other => .error (.invalidType other.describe "string or map")
  read c := do
    let readName : Reader α := fun c => do
      let (name, c) ← (stringAs "variant identifier").read c
      match known.lookup name with
      | some a => .ok (a, c)
      | none => fail c (.unknownVariant name (known.map Prod.fst))
    let c := c.skip
    match c.rest with
    | [] => c.failHere .eofInValue
    | '"' :: _ => readName c
    | '\x7b' :: _ =>
      let (a, c) ← readName (c.take '\x7b')
      let c := (← readColon c).skip
      match c.rest with
      | 'n' :: _ =>
        let c := (← readWord "null".toList c).skip
        match c.rest with
        | '\x7d' :: _ => .ok (a, c.take '\x7d')
        | [] => c.failHere .eofInObject
        | _ => .error ⟨.expectedValue, c.reported⟩
      | _ => readOther "unit" c
    | _ => c.failNext .expectedValue

/-- The number in a key, which holds nothing else. -/
def ofKey {α : Type} (d : Decoder α) (key : String) : Except Mismatch α :=
  let start := Cursor.ofText key
  match start.rest with
  | first :: _ =>
    if first = '-' ∨ first.isDigit then
      match d.read start with
      | .error error => .error (.inKey error)
      | .ok (value, c) => if c.rest.isEmpty then .ok value else .error .invalidKey
    else .error .invalidKey
  | [] => .error .invalidKey

/-- An object whose keys are numbers. -/
def keyed {κ α : Type} (key : Decoder κ) (value : Decoder α) : Decoder (List (κ × α)) where
  ofValue
    | .object members => members.mapM fun (name, content) => do
      .ok (← key.ofKey name, ← value.ofValue content)
    | other => .error (.invalidType other.describe "a map")
  read c := do
    let c := c.skip
    match c.rest with
    | '\x7b' :: _ =>
      let (members, c) ← readMembers value.read c.rest.length [] (c.take '\x7b')
      match members.mapM fun (name, content) => (key.ofKey name).map (·, content) with
      | .ok entries => .ok (entries, c)
      | .error mismatch => fail c mismatch
    | _ => readOther "a map" c

end Decoder

/-! ### Records -/

/-- A field of a record: its name, whether it must be there, and how its value changes the
record. -/
structure Field (β : Type) where
  name : String
  required : Bool
  decode : Decoder (β → β)

/-- A field that keeps its default if it is not there. -/
def Field.optional {α β : Type} (name : String) (d : Decoder α) (set : α → β → β) : Field β :=
  ⟨name, false, d.map set⟩

/-- A field that must be there. -/
def Field.needed {α β : Type} (name : String) (d : Decoder α) (set : α → β → β) : Field β :=
  ⟨name, true, d.map set⟩

/-- A record: its name, its value before any field is set, and its fields in order. -/
structure Record (β : Type) where
  name : String
  initial : β
  fields : List (Field β)

namespace Record

variable {β : Type} (r : Record β)

/-- How messages name what is expected. -/
def expected : String := s!"struct {r.name}"

def expectedLength : String :=
  s!"{r.expected} with {r.fields.length} element" ++ (if r.fields.length = 1 then "" else "s")

/-- The first required field that was not seen. -/
def missing? (seen : List String) : Option String :=
  (r.fields.find? fun field => field.required && !seen.contains field.name).map Field.name

/-- Sets the fields of the members of an object, then looks for missing ones. -/
def ofMembers (seen : List String) (record : β) : Members → Except Mismatch β
  | [] =>
    match r.missing? seen with
    | some name => .error (.missingField name)
    | none => .ok record
  | (key, value) :: members =>
    match r.fields.find? (·.name == key) with
    | none => ofMembers seen record members
    | some field =>
      match field.decode.ofValue value with
      | .ok set => ofMembers (key :: seen) (set record) members
      | .error mismatch => .error mismatch

/-- Sets the fields in order from the items of an array; `index` fields were set before. -/
def ofItems (length : Nat) (index : Nat) (record : β) : List (Field β) → List Value →
    Except Mismatch β
  | [], [] => .ok record
  | [], _ :: _ => .error (.invalidLength length "fewer elements in array")
  | field :: fields, [] =>
    if field.required then .error (.invalidLength index r.expectedLength)
    else ofItems length (index + 1) record fields []
  | field :: fields, value :: values =>
    match field.decode.ofValue value with
    | .ok set => ofItems length (index + 1) (set record) fields values
    | .error mismatch => .error mismatch

/-- Sets the fields from the members of an object as they are read, after its opening brace. -/
def readFields : Nat → Bool → List String → β → Reader β
  | 0, _, _, _, c => c.failHere .eofInObject
  | fuel + 1, first, seen, record, c => do
    match ← nextKey first c with
    | none =>
      let c := c.skip.take '\x7d'
      match r.missing? seen with
      | some name => Decoder.fail c (.missingField name)
      | none => .ok (record, c)
    | some c =>
      let (key, c) ← readString c
      match r.fields.find? (·.name == key) with
      | none => readFields fuel false seen record (← skipValue (← readColon c))
      | some field =>
        if seen.contains key then
          .error ⟨.mismatch (Mismatch.duplicateField key).message, c.skip.looked⟩
        else
          let (set, c) ← field.decode.read (← readColon c)
          readFields fuel false (key :: seen) (set record) c

/-- Requires the end of an array, of which nothing more is expected. -/
def closeItems (c : Cursor) : Except ReadError Cursor :=
  let c := c.skip
  match c.rest with
  | [] => c.failHere .eofInArray
  | ']' :: _ => .ok (c.take ']')
  | ',' :: _ =>
    let c := (c.take ',').skip
    match c.rest with
    | ']' :: _ => c.failNext .trailingComma
    | _ => c.failNext .trailingCharacters
  | _ => c.failNext .trailingCharacters

/-- Goes to the next item of an array, if there is one. -/
def nextItem (first : Bool) (c : Cursor) : Except ReadError (Option Cursor) :=
  let c := c.skip
  match c.rest with
  | [] => c.failHere .eofInArray
  | ']' :: _ => .ok none
  | next :: _ =>
    if first then .ok (some c)
    else if next = ',' then
      let c := (c.take ',').skip
      match c.rest with
      | [] => c.failHere .eofInValue
      | ']' :: _ => c.failNext .trailingComma
      | _ => .ok (some c)
    else c.failNext .expectedCommaOrBracket

/-- Sets the fields in order from the items of an array as they are read, after its opening
bracket. -/
def readItemsInto (index : Nat) (record : β) : List (Field β) → Reader β
  | [], c => do .ok (record, ← closeItems c)
  | field :: fields, c => do
    match ← nextItem (index == 0) c with
    | none =>
      if field.required then
        let c := c.skip.take ']'
        Decoder.fail c (.invalidLength index r.expectedLength)
      else readItemsInto (index + 1) record fields c
    | some c =>
      let (set, c) ← field.decode.read c
      readItemsInto (index + 1) (set record) fields c

/-- How the record is obtained. -/
def decoder : Decoder β where
  ofValue
    | .object members => r.ofMembers [] r.initial members
    | .array items => r.ofItems items.length 0 r.initial r.fields items
    | other => .error (.invalidType other.describe r.expected)
  read c :=
    let c := c.skip
    match c.rest with
    | '\x7b' :: _ => r.readFields c.rest.length true [] r.initial (c.take '\x7b')
    | '[' :: _ => r.readItemsInto 0 r.initial r.fields (c.take '[')
    | _ => Decoder.readOther r.expected c

end Record

/-- Reads with a decoder all that is left at a cursor. -/
def Decoder.readAll {α : Type} (d : Decoder α) (c : Cursor) : Except ReadError α := do
  let (value, c) ← d.read c
  finish c
  .ok value

end Folio.Json
