import Folio.Text.Quoted

/-!
# Percent-encoding

A component of an address writes the bytes of some characters as `%XX`. Controls and characters
outside ASCII are always written so; what else is depends on the component.
-/

set_option autoImplicit false

namespace Folio.Url

/-- The bytes of a character in UTF-8. -/
def utf8 (c : Char) : List UInt8 :=
  String.utf8EncodeChar c

/-- Whether a character is a control or lies outside ASCII. -/
def isControl (c : Char) : Bool :=
  c.toNat < 0x20 || 0x7F ≤ c.toNat

/-- What is encoded in a fragment. -/
def inFragment (c : Char) : Bool :=
  isControl c || [' ', '"', '<', '>', '`'].contains c

/-- What is encoded in a path. -/
def inPath (c : Char) : Bool :=
  inFragment c || ['#', '?', '\x7b', '\x7d'].contains c

/-- What is encoded in a user name or a password. -/
def inUserinfo (c : Char) : Bool :=
  inPath c || ['/', ':', ';', '=', '@', '[', '\\', ']', '^', '|'].contains c

/-- What is encoded in a query. -/
def inQuery (special : Bool) (c : Char) : Bool :=
  isControl c || [' ', '"', '#', '<', '>'].contains c || (special && c == '\'')

/-- A byte as a percent sign and two hexadecimal digits. -/
def encodeByte (b : UInt8) : List Char :=
  '%' :: Text.hexUpper 2 b.toNat

/-- A text with the characters of a class encoded. -/
def encode (chosen : Char → Bool) (text : List Char) : List Char :=
  text.flatMap fun c => if chosen c then (utf8 c).flatMap encodeByte else [c]

/-- The value of a hexadecimal digit. -/
def digit? (c : Char) : Option Nat :=
  if '0' ≤ c ∧ c ≤ '9' then some (c.toNat - '0'.toNat)
  else if 'a' ≤ c ∧ c ≤ 'f' then some (c.toNat - 'a'.toNat + 10)
  else if 'A' ≤ c ∧ c ≤ 'F' then some (c.toNat - 'A'.toNat + 10)
  else none

/-- The bytes of a text with its encoded bytes decoded; a percent sign without two digits stays. -/
def decode : List Char → List UInt8
  | [] => []
  | '%' :: a :: b :: rest =>
    match digit? a, digit? b with
    | some high, some low => UInt8.ofNat (high * 16 + low) :: decode rest
    | _, _ => 0x25 :: decode (a :: b :: rest)
  | c :: rest => utf8 c ++ decode rest

end Folio.Url
