import Folio.Json.Value
import Folio.Number.Binary
import Folio.Text.Quoted

/-!
# Writing JSON

Two layouts: compact, without any blanks, and indented by two spaces a level. A string escapes the
quote, the backslash and the control characters and nothing else; a floating-point number is
written with the fewest digits that read back as the same number.
-/

set_option autoImplicit false

namespace Folio.Json

/-- How a character is written inside a string. -/
def escapeChar (c : Char) : List Char :=
  if c = '"' then ['\\', '"']
  else if c = '\\' then ['\\', '\\']
  else if c = '\x08' then ['\\', 'b']
  else if c = '\x0c' then ['\\', 'f']
  else if c = '\n' then ['\\', 'n']
  else if c = '\r' then ['\\', 'r']
  else if c = '\t' then ['\\', 't']
  else if c.toNat < 0x20 then
    ['\\', 'u', '0', '0', Text.hexDigit (c.toNat / 16), Text.hexDigit c.toNat]
  else [c]

/-- A string between quotes. -/
def stringText (text : String) : List Char :=
  '"' :: text.toList.flatMap escapeChar ++ ['"']

/-- How floating-point numbers of a format are written. -/
structure FloatLayout where
  format : Float.Model.Format
  /-- As many digits tell any two numbers of the format apart. -/
  digits : Nat
  /-- The least exponent of ten, of the first digit, that is written positionally. -/
  lowest : Int
  /-- The greatest exponent of ten, of the first digit, that is written positionally. -/
  highest : Int

/-- Numbers of 64 bits are positional from `1e-5` to below `1e16`. -/
def float64Layout : FloatLayout := ⟨.binary64, 17, -5, 15⟩

/-- Numbers of 32 bits are positional from `1e-6` to below `1e13`. -/
def float32Layout : FloatLayout := ⟨.binary32, 9, -6, 12⟩

/-- The text of a positive number: positional with a fraction, or with an exponent. -/
def FloatLayout.decimalText (layout : FloatLayout) (d : Decimal) : List Char :=
  if layout.lowest < d.point ∧ d.point ≤ layout.highest + 1 then
    let digits := d.positional
    if digits.contains '.' then digits else digits ++ ['.', '0']
  else d.scientific

/-- The text of a floating-point number; what is not finite is `null`. -/
def FloatLayout.text (layout : FloatLayout) : Float.Model.UnpackedFloat → List Char
  | .notANumber => "null".toList
  | .infinity _ => "null".toList
  | .zero .positive => "0.0".toList
  | .zero .negative => "-0.0".toList
  | .finite .positive m q _ => layout.decimalText (.ofBinary layout.format layout.digits m q)
  | .finite .negative m q _ => '-' :: layout.decimalText (.ofBinary layout.format layout.digits m q)

def float64Text (x : Float) : List Char :=
  float64Layout.text x.toModel.unpack

def float32Text (x : Float32) : List Char :=
  float32Layout.text x.toModel.unpack

/-- The decimal digits of an integer, with a minus for negative ones. -/
def integerText (n : Int) : List Char :=
  if n < 0 then '-' :: Nat.toDigits 10 n.natAbs else Nat.toDigits 10 n.natAbs

def Number.text : Number → List Char
  | .integer n => integerText n
  | .float x => float64Text x

/-- The compact texts of items, separated by commas. -/
def separated : List (List Char) → List Char
  | [] => []
  | [text] => text
  | text :: texts => text ++ ',' :: separated texts

mutual

/-- The compact text of a value. -/
def Value.compact : Value → List Char
  | .null => ['n', 'u', 'l', 'l']
  | .bool true => ['t', 'r', 'u', 'e']
  | .bool false => ['f', 'a', 'l', 's', 'e']
  | .number n => n.text
  | .string text => stringText text
  | .array items => '[' :: separated (compactItems items) ++ [']']
  | .object members => '{' :: separated (compactMembers members) ++ ['}']

/-- The compact texts of the items of an array. -/
def compactItems : List Value → List (List Char)
  | [] => []
  | item :: items => item.compact :: compactItems items

/-- The compact texts of the members of an object. -/
def compactMembers : List (String × Value) → List (List Char)
  | [] => []
  | (key, value) :: members => (stringText key ++ ':' :: value.compact) :: compactMembers members

end

/-- The compact text of a value, as a string. -/
def Value.text (value : Value) : String :=
  String.ofList value.compact

/-- A line break and the indentation of a level. -/
def newLine (level : Nat) : List Char :=
  '\n' :: List.replicate (2 * level) ' '

/-- The texts of items on lines of their own, between brackets; brackets alone if there are none. -/
def block (level : Nat) (opening closing : Char) (texts : List (List Char)) : List Char :=
  match texts with
  | [] => [opening, closing]
  | texts =>
    opening :: separated (texts.map (newLine (level + 1) ++ ·)) ++ newLine level ++ [closing]

/-- The text of a member whose value is written already. -/
def memberText (key : String) (value : List Char) : List Char :=
  stringText key ++ [':', ' '] ++ value

end Folio.Json
