import Folio.Pdf.Content

/-!
# Reading PDF objects

Objects, operations and whole content streams are read from the front of their bytes. A reader gives
back what it read and the bytes that follow, or nothing if the bytes do not begin with it.
-/

set_option autoImplicit false

namespace Folio.Pdf

/-- Reads something from the front of bytes. -/
abbrev Reader (α : Type) := Bytes → Option (α × Bytes)

def isSpace (byte : UInt8) : Bool :=
  byte = 0x20 || byte = 0x09 || byte = 0x0A || byte = 0x0D || byte = 0x00 || byte = 0x0C

def isLineEnd (byte : UInt8) : Bool :=
  byte = 0x0A || byte = 0x0D

/-- Whether a byte separates words without being a space. -/
def isDelimiter (byte : UInt8) : Bool :=
  (asciiBytes "()<>[]\x7b\x7d/%".toList).contains byte

def isDigit (byte : UInt8) : Bool :=
  0x30 ≤ byte && byte ≤ 0x39

/-- The value of a hexadecimal digit. -/
def hexValue? (byte : UInt8) : Option Nat :=
  if isDigit byte then some (byte.toNat - 0x30)
  else if 0x41 ≤ byte && byte ≤ 0x46 then some (byte.toNat - 0x41 + 10)
  else if 0x61 ≤ byte && byte ≤ 0x66 then some (byte.toNat - 0x61 + 10)
  else none

/-- What follows a line end, if the bytes begin with one. -/
def skipLineEnd? : Bytes → Option Bytes
  | 0x0D :: 0x0A :: rest => some rest
  | 0x0A :: rest => some rest
  | 0x0D :: rest => some rest
  | _ => none

/-- What follows spaces and comments; `comment` says that a comment has begun. -/
def skipSpaceFrom (comment : Bool) : Bytes → Bytes
  | [] => []
  | byte :: rest =>
    if comment then skipSpaceFrom (!isLineEnd byte) rest
    else if isSpace byte then skipSpaceFrom false rest
    else if byte = 0x25 then skipSpaceFrom true rest
    else byte :: rest

/-- What follows spaces and comments. -/
def skipSpace (bytes : Bytes) : Bytes :=
  skipSpaceFrom false bytes

/-- What follows a word, if the bytes begin with it. -/
def skipWord? (word : String) (bytes : Bytes) : Option Bytes :=
  let expected := asciiBytes word.toList
  if expected.isPrefixOf bytes then some (bytes.drop expected.length) else none

/-- The characters of bytes that are taken for one character each. -/
def latinChars (bytes : Bytes) : List Char :=
  bytes.map fun byte => Char.ofNat byte.toNat

/-! ### Numbers, names and strings -/

/-- An unsigned decimal number. -/
def readNatural : Reader Nat := fun bytes =>
  match bytes.span isDigit with
  | ([], _) => none
  | (digits, rest) => some (digits.foldl (fun n digit => n * 10 + (digit.toNat - 0x30)) 0, rest)

/-- Whether bytes begin with a minus, and what follows the sign if there is one. -/
def readMinus : Bytes → Bool × Bytes
  | 0x2D :: rest => (true, rest)
  | 0x2B :: rest => (false, rest)
  | bytes => (false, bytes)

/-- Digits with a point: those before it, those behind it, and what follows. -/
def readPoint? (bytes : Bytes) : Option (Bytes × Bytes × Bytes) :=
  let (whole, rest) := bytes.span isDigit
  match rest with
  | 0x2E :: more =>
    let (fraction, after) := more.span isDigit
    if whole.isEmpty && fraction.isEmpty then none else some (whole, fraction, after)
  | _ => none

/-- A number: one with a point is real, one without is an integer of 64 bits. -/
def readNumber : Reader Object := fun bytes =>
  let (negative, unsigned) := readMinus bytes
  match readPoint? unsigned with
  | some (whole, fraction, after) =>
    let m := (whole ++ fraction).foldl (fun n digit => n * 10 + (digit.toNat - 0x30)) 0
    let x := Binary32.ofDecimal m (-(fraction.length : Int))
    some (.real (if negative then -x else x), after)
  | none => do
    let (n, after) ← readNatural unsigned
    let value : Int := if negative then -(n : Int) else n
    if -0x8000000000000000 ≤ value ∧ value < 0x8000000000000000 then some (.integer value, after)
    else none

/-- The bytes of a name, behind the slash. -/
def readNameBytes : Bytes → Bytes × Bytes
  | [] => ([], [])
  | [byte] => if byte = 0x23 || isSpace byte || isDelimiter byte then ([], [byte]) else ([byte], [])
  | [byte, next] =>
    if byte = 0x23 || isSpace byte || isDelimiter byte then ([], [byte, next])
    else
      let (name, rest) := readNameBytes [next]
      (byte :: name, rest)
  | byte :: next :: last :: rest =>
    if byte = 0x23 then
      match hexValue? next, hexValue? last with
      | some high, some low =>
        let (name, rest) := readNameBytes rest
        (UInt8.ofNat (high * 16 + low) :: name, rest)
      | _, _ => ([], byte :: next :: last :: rest)
    else if isSpace byte || isDelimiter byte then ([], byte :: next :: last :: rest)
    else
      let (name, rest) := readNameBytes (next :: last :: rest)
      (byte :: name, rest)

/-- The text of a name's bytes. -/
def nameOfBytes (bytes : Bytes) : String :=
  (String.fromUTF8? ⟨bytes.toArray⟩).getD (String.ofList (latinChars bytes))

def readName : Reader String
  | 0x2F :: rest =>
    let (name, rest) := readNameBytes rest
    some (nameOfBytes name, rest)
  | _ => none

/-- Up to `count` octal digits after `value`. -/
def readOctal : Nat → Nat → Bytes → Nat × Bytes
  | count + 1, value, byte :: rest =>
    if 0x30 ≤ byte && byte ≤ 0x37 then readOctal count (value * 8 + (byte.toNat - 0x30)) rest
    else (value, byte :: rest)
  | _, value, bytes => (value, bytes)

/-- The bytes that stand for themselves behind a backslash, by the letter that names them. -/
def escapedByte (letter : UInt8) : UInt8 :=
  if letter = 0x6E then 0x0A
  else if letter = 0x72 then 0x0D
  else if letter = 0x74 then 0x09
  else if letter = 0x62 then 0x08
  else if letter = 0x66 then 0x0C
  else letter

/-- How many pairs of parentheses may stand inside each other in a string. -/
def nestingLimit : Nat := 100

/-- The rest of a string inside which `depth` parentheses are open. -/
def readStringFrom : Nat → Nat → Bytes → Option (Bytes × Bytes)
  | 0, _, _ => none
  | _, _, [] => none
  | fuel + 1, depth, byte :: rest =>
    let plain (bytes : Bytes) (depth : Nat) (rest : Bytes) : Option (Bytes × Bytes) :=
      (readStringFrom fuel depth rest).map fun (text, rest) => (bytes ++ text, rest)
    if byte = 0x29 then
      if depth = 0 then some ([], rest) else plain [byte] (depth - 1) rest
    else if byte = 0x28 then
      if depth < nestingLimit then plain [byte] (depth + 1) rest else none
    else if byte = 0x5C then
      match rest with
      | [] => none
      | letter :: more =>
        if 0x30 ≤ letter && letter ≤ 0x37 then
          let (value, after) := readOctal 3 0 rest
          plain [UInt8.ofNat value] depth after
        else if let some after := skipLineEnd? rest then plain [] depth after
        else plain [escapedByte letter] depth more
    else plain [byte] depth rest

/-- A string between parentheses. -/
def readString : Reader Bytes
  | 0x28 :: rest => readStringFrom (rest.length + 1) 0 rest
  | _ => none

/-- Bytes from pairs of hexadecimal digits; a last digit alone is followed by a zero. -/
def ofHexValues : List Nat → Bytes
  | high :: low :: rest => UInt8.ofNat (high * 16 + low) :: ofHexValues rest
  | [high] => [UInt8.ofNat (high * 16)]
  | [] => []

/-- The digits of a string in hexadecimal digits, up to its end. -/
def readHexValues : Bytes → Option (List Nat × Bytes)
  | [] => none
  | byte :: rest =>
    if byte = 0x3E then some ([], rest)
    else if isSpace byte then readHexValues rest
    else do
      let value ← hexValue? byte
      let (values, rest) ← readHexValues rest
      some (value :: values, rest)

/-- A string in hexadecimal digits. -/
def readHexString : Reader Bytes
  | 0x3C :: rest => (readHexValues rest).map fun (values, rest) => (ofHexValues values, rest)
  | _ => none

/-- The greatest generation of an object. -/
def lastGeneration : Nat := 0xFFFF

/-- The number of an object, given as its number in a file and its generation. -/
def readObjectNumber : Reader Nat := fun bytes => do
  let (number, rest) ← readNatural bytes
  let (generation, rest) ← readNatural (skipSpace rest)
  if number < generationSize ∧ generation ≤ lastGeneration then
    some (objectNumber number generation, rest)
  else none

/-- A reference to an object. -/
def readReference : Reader Nat := fun bytes => do
  let (number, rest) ← readObjectNumber bytes
  some (number, ← skipWord? "R" (skipSpace rest))

/-! ### Objects -/

/-- The first of several readers that finds what it reads. -/
def firstOf {α : Type} : List (Reader α) → Reader α
  | [], _ => none
  | reader :: readers, bytes =>
    match reader bytes with
    | some found => some found
    | none => firstOf readers bytes

/-- An object that neither holds others nor leads to one. -/
def readAtom : Reader Object :=
  firstOf [
    fun bytes => (skipWord? "null" bytes).map (.null, ·),
    fun bytes => (skipWord? "true" bytes).map (.bool true, ·),
    fun bytes => (skipWord? "false" bytes).map (.bool false, ·),
    readNumber,
    fun bytes => (readName bytes).map fun (name, rest) => (.name name, rest),
    fun bytes => (readString bytes).map fun (text, rest) => (.string text, rest),
    fun bytes => (readHexString bytes).map fun (text, rest) => (.hexString text, rest)]

/-- An object that holds no others. -/
def readSimple : Reader Object :=
  firstOf [
    fun bytes => (readReference bytes).map fun (n, rest) => (.reference n, rest),
    readAtom]

mutual

/-- An object; `fuel` bounds how many objects are read. -/
def readObjectFrom : Nat → Reader Object
  | 0, _ => none
  | fuel + 1, bytes =>
    match bytes with
    | 0x5B :: rest =>
      (readItemsFrom fuel (skipSpace rest)).map fun (items, rest) => (.array items, rest)
    | 0x3C :: 0x3C :: rest =>
      (readEntriesFrom fuel [] (skipSpace rest)).map fun (dict, rest) => (.dictionary dict, rest)
    | _ => readSimple bytes

/-- The items of an array up to its end. -/
def readItemsFrom : Nat → Reader (List Object)
  | 0, _ => none
  | fuel + 1, bytes =>
    match bytes with
    | 0x5D :: rest => some ([], rest)
    | _ => do
      let (item, rest) ← readObjectFrom fuel bytes
      let (items, rest) ← readItemsFrom fuel (skipSpace rest)
      some (item :: items, rest)

/-- The entries of a dictionary up to its end, set one after the other. -/
def readEntriesFrom : Nat → Dictionary → Reader Dictionary
  | 0, _, _ => none
  | fuel + 1, dict, bytes =>
    match bytes with
    | 0x3E :: 0x3E :: rest => some (dict, rest)
    | _ => do
      let (key, rest) ← readName bytes
      let (value, rest) ← readObjectFrom fuel (skipSpace rest)
      readEntriesFrom fuel (dict.set key value) (skipSpace rest)

end

/-- How many steps suffice to read an object from bytes. -/
def objectFuel (bytes : Bytes) : Nat :=
  2 * bytes.length + 2

/-- An object. -/
def readObject : Reader Object := fun bytes =>
  readObjectFrom (objectFuel bytes) bytes

/-! ### Content streams -/

/-- What follows the spaces of a content stream. -/
def skipContentSpace (bytes : Bytes) : Bytes :=
  bytes.dropWhile fun byte => byte = 0x20 || byte = 0x09 || byte = 0x0A || byte = 0x0D

/-- What follows comments one right behind the other. Each ends with a line end; one that does not
is no comment. At most as many are skipped as `count` says. -/
def skipComments : Nat → Bytes → Bytes
  | count + 1, 0x25 :: rest =>
    match skipLineEnd? (rest.dropWhile fun byte => !isLineEnd byte) with
    | some after => skipComments count after
    | none => 0x25 :: rest
  | _, bytes => bytes

/-- Whether a byte may stand in an operator. -/
def isOperatorByte (byte : UInt8) : Bool :=
  0x41 ≤ byte && byte ≤ 0x5A || 0x61 ≤ byte && byte ≤ 0x7A ||
    byte = 0x2A || byte = 0x27 || byte = 0x22

/-- An operand: an object that is no reference. -/
def readOperand (fuel : Nat) : Reader Object := fun bytes =>
  match bytes with
  | 0x5B :: _ | 0x3C :: 0x3C :: _ => readObjectFrom fuel bytes
  | _ => readAtom bytes

/-- Operands up to something that is none; `fuel` suffices to read each. -/
def readOperandsFrom (fuel : Nat) : Nat → Bytes → List Object × Bytes
  | 0, bytes => ([], bytes)
  | count + 1, bytes =>
    match readOperand fuel bytes with
    | some (operand, rest) =>
      let (operands, rest) := readOperandsFrom fuel count (skipContentSpace rest)
      (operand :: operands, rest)
    | none => ([], bytes)

/-- Operations up to something that is none. Comments may stand before an operation, though not
inside it. -/
def readOperationsFrom (fuel : Nat) : Nat → Bytes → List Operation
  | 0, _ => []
  | count + 1, bytes =>
    let (operands, rest) := readOperandsFrom fuel fuel (skipComments fuel bytes)
    match rest.span isOperatorByte with
    | ([], _) => []
    | (operator, rest) =>
      { operator := String.ofList (latinChars operator), operands } ::
        readOperationsFrom fuel count (skipContentSpace rest)

/-- The operations of a content stream, up to the first fault in it. -/
def readContent (bytes : Bytes) : List Operation :=
  readOperationsFrom (objectFuel bytes) bytes.length (skipContentSpace bytes)

end Folio.Pdf
