import Folio.Pdf.Object
import Folio.Text.Quoted

/-!
# PDF objects as text

The written form of objects, as it stands in files and in content streams.
-/

set_option autoImplicit false

namespace Folio.Pdf

/-- The bytes of a text made of characters that take one byte each. -/
def asciiBytes (text : List Char) : Bytes :=
  text.map fun c => UInt8.ofNat c.toNat

/-- The bytes of a string in UTF-8. -/
def utf8Bytes (text : String) : Bytes :=
  text.toUTF8.toList

/-- Whether a byte stands for itself in a name. -/
def isRegular (byte : UInt8) : Bool :=
  0x21 ≤ byte && byte ≤ 0x7E && !(asciiBytes "()<>[]\x7b\x7d/%#".toList).contains byte

/-- The written form of a name. -/
def nameText (name : String) : Bytes :=
  asciiBytes ['/'] ++ (utf8Bytes name).flatMap fun byte =>
    if isRegular byte then [byte] else asciiBytes ('#' :: Text.hexUpper 2 byte.toNat)

/-- The written form of a string between parentheses. -/
def stringText (bytes : Bytes) : Bytes :=
  asciiBytes ['('] ++ (bytes.flatMap fun byte =>
    if (asciiBytes ['(', ')', '\\']).contains byte then asciiBytes ['\\'] ++ [byte]
    else if byte = 13 then asciiBytes ['\\', 'r']
    else [byte]) ++ asciiBytes [')']

/-- The written form of the number of an object: its number in a file and its generation. -/
def objectNumberText (number : Nat) : List Char :=
  Nat.toDigits 10 (number % generationSize) ++ ' ' :: Nat.toDigits 10 (number / generationSize)

/-- The written form of a string in hexadecimal digits. -/
def hexText (bytes : Bytes) : Bytes :=
  asciiBytes ('<' :: bytes.flatMap (fun byte => Text.hexUpper 2 byte.toNat) ++ ['>'])

mutual

/-- The written form of an object. -/
def Object.text : Object → Bytes
  | .null => asciiBytes "null".toList
  | .bool true => asciiBytes "true".toList
  | .bool false => asciiBytes "false".toList
  | .integer value => asciiBytes (toString value).toList
  | .real value => asciiBytes (Binary32.text value).toList
  | .name text => nameText text
  | .string bytes => stringText bytes
  | .hexString bytes => hexText bytes
  | .array items => asciiBytes ['['] ++ itemsText items ++ asciiBytes [']']
  | .dictionary entries => asciiBytes ['<', '<'] ++ entriesText entries ++ asciiBytes ['>', '>']
  | .stream entries content =>
    asciiBytes "<<".toList ++ entriesText entries ++
      asciiBytes ("/Length ".toList ++ Nat.toDigits 10 content.length ++ ">>\nstream\n".toList) ++
      content ++ asciiBytes "\nendstream".toList
  | .reference number => asciiBytes (objectNumberText number ++ [' ', 'R'])

def itemsText : List Object → Bytes
  | [] => []
  | [item] => item.text
  | item :: items => item.text ++ asciiBytes [' '] ++ itemsText items

def entriesText : List (String × Object) → Bytes
  | [] => []
  | (key, value) :: entries =>
    nameText key ++ asciiBytes [' '] ++ value.text ++ entriesText entries

end

end Folio.Pdf
