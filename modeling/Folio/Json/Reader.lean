import Folio.Json.Value
import Folio.Number.Binary
import Folio.Text.Utf8

/-!
# Reading JSON

A reader walks over the characters of a text and counts lines, and bytes in the line. An error
carries the position up to which the text was read; an error about the next character, which is
looked at and not yet taken, counts that character's first byte too.

A cursor over a stream differs in two points. There the byte looked at counts for every error; it
matters after a number, whose end is seen only by looking one character further. And a stream may
hold bytes that are no text. Each stands as a character that JSON has no use for, and it is a fault
only in a string whose value is asked for.
-/

set_option autoImplicit false

namespace Folio.Json

/-- What is wrong with the form of a text. -/
inductive Fault where
  | eofInValue
  | eofInString
  | eofInObject
  | eofInArray
  | expectedColon
  | expectedCommaOrBracket
  | expectedCommaOrBrace
  | expectedIdent
  | expectedValue
  | invalidEscape
  | invalidNumber
  | numberOutOfRange
  | loneSurrogate
  | unexpectedEndOfHexEscape
  | controlCharacter
  | keyMustBeString
  | trailingComma
  | trailingCharacters
  | recursionLimit
  | invalidUnicode
  /-- The text is well-formed up to here, but what it says is not what was asked for. -/
  | mismatch (message : String)
deriving DecidableEq, Repr

/-- The words for a fault. -/
def Fault.message : Fault → String
  | .eofInValue => "EOF while parsing a value"
  | .eofInString => "EOF while parsing a string"
  | .eofInObject => "EOF while parsing an object"
  | .eofInArray => "EOF while parsing a list"
  | .expectedColon => "expected `:`"
  | .expectedCommaOrBracket => "expected `,` or `]`"
  | .expectedCommaOrBrace => "expected `,` or `\x7d`"
  | .expectedIdent => "expected ident"
  | .expectedValue => "expected value"
  | .invalidEscape => "invalid escape"
  | .invalidNumber => "invalid number"
  | .numberOutOfRange => "number out of range"
  | .loneSurrogate => "lone leading surrogate in hex escape"
  | .unexpectedEndOfHexEscape => "unexpected end of hex escape"
  | .controlCharacter => "control character (\\u0000-\\u001F) found while parsing a string"
  | .keyMustBeString => "key must be a string"
  | .trailingComma => "trailing comma"
  | .trailingCharacters => "trailing characters"
  | .recursionLimit => "recursion limit exceeded"
  | .invalidUnicode => "invalid unicode code point"
  | .mismatch message => message

/-- A place in a text: the line, from 1, and the bytes of the line before the place. -/
structure Position where
  line : Nat
  column : Nat
deriving DecidableEq, Repr

/-- The place after one byte of a character. -/
def Position.pastByte (p : Position) (c : Char) : Position :=
  if c = '\n' then ⟨p.line + 1, 0⟩ else ⟨p.line, p.column + 1⟩

/-- The place after a character. -/
def Position.past (p : Position) (c : Char) : Position :=
  if c = '\n' then ⟨p.line + 1, 0⟩ else ⟨p.line, p.column + c.utf8Size⟩

/-- A fault and where it was found. -/
structure ReadError where
  fault : Fault
  position : Position
deriving DecidableEq, Repr

/-- The words for an error, with its line and column. -/
def ReadError.message (e : ReadError) : String :=
  s!"{e.fault.message} at line {e.position.line} column {e.position.column}"

/-- What is left of a text, and the place reached. -/
structure Cursor where
  rest : List Char
  position : Position
  /-- Whether a byte looked at counts for every error. -/
  streaming : Bool
  /-- The places after the bytes that are no text. -/
  broken : List Position := []
deriving DecidableEq

namespace Cursor

/-- The start of a text held in memory. -/
def ofText (text : String) : Cursor := ⟨text.toList, ⟨1, 0⟩, false, []⟩

/-- The start of a text read from a stream. -/
def ofStream (text : String) : Cursor := ⟨text.toList, ⟨1, 0⟩, true, []⟩

/-- What stands for a byte that is no text: one byte that means nothing outside of strings. -/
def brokenByte : Char := '\x7f'

/-- The places after the bytes that are no text, where the first letter begins at a place. -/
def brokenFrom (p : Position) : List (Option Char) → List Position
  | [] => []
  | some c :: letters => brokenFrom (p.past c) letters
  | none :: letters => p.past brokenByte :: brokenFrom (p.past brokenByte) letters

/-- The start of bytes read from a stream, which need not be text. -/
def ofBytes (bytes : List UInt8) : Cursor :=
  let letters := Text.decodePartly bytes
  ⟨letters.map (·.getD brokenByte), ⟨1, 0⟩, true, brokenFrom ⟨1, 0⟩ letters⟩

/-- The place after the first byte of the next character, if there is one. -/
def looked (c : Cursor) : Position :=
  match c.rest with
  | [] => c.position
  | next :: _ => c.position.pastByte next

/-- The place of an error that is found after looking at the next character. -/
def reported (c : Cursor) : Position :=
  if c.streaming then c.looked else c.position

/-- An error about the next character. -/
def failNext {α : Type} (c : Cursor) (fault : Fault) : Except ReadError α :=
  .error ⟨fault, c.looked⟩

/-- An error about what was taken last. -/
def failHere {α : Type} (c : Cursor) (fault : Fault) : Except ReadError α :=
  .error ⟨fault, c.position⟩

/-- The cursor after its next character, which is `next`. -/
def take (c : Cursor) (next : Char) : Cursor :=
  { c with rest := c.rest.tail, position := c.position.past next }

end Cursor

/-- A reader takes a value from the front of a text. -/
abbrev Reader (α : Type) := Cursor → Except ReadError (α × Cursor)

/-- The blanks of JSON. -/
def isSpace (c : Char) : Bool :=
  c == ' ' || c == '\n' || c == '\t' || c == '\r'

/-- Passes over blanks: the rest of the text and the place reached. -/
def skipSpaces : List Char → Position → List Char × Position
  | [], p => ([], p)
  | c :: cs, p => if isSpace c then skipSpaces cs (p.past c) else (c :: cs, p)

/-- The cursor at the next character that is no blank. -/
def Cursor.skip (c : Cursor) : Cursor :=
  let (rest, position) := skipSpaces c.rest c.position
  { c with rest, position }

/-- Takes the characters of a word. -/
def readWord : List Char → Cursor → Except ReadError Cursor
  | [], c => .ok c
  | w :: word, c =>
    match c.rest with
    | [] => c.failHere .eofInValue
    | next :: _ =>
      if next = w then readWord word (c.take next) else c.failNext .expectedIdent

/-! ### Strings -/

/-- Where a reader is inside a string. -/
inductive StringState where
  /-- Between two characters. -/
  | plain
  /-- After a backslash. -/
  | escape
  /-- Inside `\uXXXX`: the bytes still to come, the value of those before them, if they are all
  digits, and the leading surrogate that was read before. -/
  | hex (left : Nat) (value : Option Nat) (leading : Option Nat)
  /-- After a leading surrogate. -/
  | backslash (leading : Nat)
  /-- After a leading surrogate and a backslash. -/
  | letterU (leading : Nat)
deriving DecidableEq, Repr

/-- The value of a hexadecimal digit. -/
def hexValue? (c : Char) : Option Nat :=
  if '0' ≤ c ∧ c ≤ '9' then some (c.toNat - '0'.toNat)
  else if 'a' ≤ c ∧ c ≤ 'f' then some (c.toNat - 'a'.toNat + 10)
  else if 'A' ≤ c ∧ c ≤ 'F' then some (c.toNat - 'A'.toNat + 10)
  else none

/-- The character that a letter after a backslash stands for. -/
def escaped? (c : Char) : Option Char :=
  match c with
  | '"' => some '"'
  | '\\' => some '\\'
  | '/' => some '/'
  | 'b' => some '\x08'
  | 'f' => some '\x0c'
  | 'n' => some '\n'
  | 'r' => some '\r'
  | 't' => some '\t'
  | _ => none

/-- What four hexadecimal digits yield, after a leading surrogate or not: the state to go on in and
the character that is complete, or a fault. -/
def closeHex (value : Option Nat) (leading : Option Nat) :
    Except Fault (StringState × List Char) :=
  match value, leading with
  | none, _ => .error .invalidEscape
  | some n, none =>
    if 0xDC00 ≤ n ∧ n ≤ 0xDFFF then .error .loneSurrogate
    else if 0xD800 ≤ n ∧ n ≤ 0xDBFF then .ok (.backslash n, [])
    else .ok (.plain, [Char.ofNat n])
  | some n, some high =>
    if 0xDC00 ≤ n ∧ n ≤ 0xDFFF then
      .ok (.plain, [Char.ofNat ((high - 0xD800) * 0x400 + (n - 0xDC00) + 0x10000)])
    else .error .loneSurrogate

/-- Reads a string up to its closing quote: its text, what follows, and the place reached; `read`
holds what was read so far, last first. With `lenient` surrogates need not be paired, as in a string
whose value is not asked for. -/
def readChars (lenient : Bool) (state : StringState) (p : Position) (read : List Char) :
    List Char → Except ReadError (String × List Char × Position)
  | [] => .error ⟨.eofInString, p⟩
  | c :: cs =>
    match state with
    | .plain =>
      if c = '"' then .ok (String.ofList read.reverse, cs, p.past c)
      else if c = '\\' then readChars lenient .escape (p.past c) read cs
      else if c.toNat < 0x20 then .error ⟨.controlCharacter, p.pastByte c⟩
      else readChars lenient .plain (p.past c) (c :: read) cs
    | .escape =>
      if c = 'u' then readChars lenient (.hex 4 (some 0) none) (p.past c) read cs
      else
        match escaped? c with
        | some plain => readChars lenient .plain (p.past c) (plain :: read) cs
        | none => .error ⟨.invalidEscape, p.pastByte c⟩
    | .hex left value leading =>
      let value := value.bind fun v => (hexValue? c).map (v * 16 + ·)
      if c.utf8Size < left then
        readChars lenient (.hex (left - c.utf8Size) value leading) (p.past c) read cs
      else if lenient && value.isSome then
        readChars lenient .plain (p.past c) read cs
      else
        match closeHex value leading with
        | .ok (next, done) => readChars lenient next (p.past c) (done ++ read) cs
        | .error fault =>
          .error ⟨fault, if c = '\n' then p.pastByte c else ⟨p.line, p.column + left⟩⟩
    | .backslash leading =>
      if c = '\\' then readChars lenient (.letterU leading) (p.past c) read cs
      else .error ⟨.unexpectedEndOfHexEscape, p.pastByte c⟩
    | .letterU leading =>
      if c = 'u' then readChars lenient (.hex 4 (some 0) (some leading)) (p.past c) read cs
      else .error ⟨.unexpectedEndOfHexEscape, p.pastByte c⟩

/-- The place after the first byte that is no text, between two places of one line. -/
def Cursor.brokenBetween? (c : Cursor) (start stop : Position) : Option Position :=
  c.broken.find? fun p =>
    p.line == stop.line && decide (start.column < p.column) && decide (p.column < stop.column)

/-- Reads a string whose opening quote is the next character. -/
def readString : Reader String := fun c => do
  let c := c.take '"'
  let (text, rest, position) ← readChars false .plain c.position [] c.rest
  match c.brokenBetween? c.position position with
  | some place => .error ⟨.invalidUnicode, place⟩
  | none => .ok (text, { c with rest, position })

/-- Passes over a string whose opening quote is the next character. -/
def skipString (c : Cursor) : Except ReadError Cursor := do
  let c := c.take '"'
  let (_, rest, position) ← readChars true .plain c.position [] c.rest
  .ok { c with rest, position }

/-! ### Numbers -/

/-- Takes digits as long as the number they make fits 64 bits: the number, how many were taken, and
where the walk stopped. -/
def takeDigits (value count : Nat) (p : Position) : List Char → Nat × Nat × List Char × Position
  | [] => (value, count, [], p)
  | c :: cs =>
    let next := value * 10 + (c.toNat - '0'.toNat)
    if c.isDigit ∧ next < UInt64.size then takeDigits next (count + 1) (p.past c) cs
    else (value, count, c :: cs, p)

/-- Passes over digits and counts them. -/
def dropDigits (count : Nat) (p : Position) : List Char → Nat × List Char × Position
  | [] => (count, [], p)
  | c :: cs => if c.isDigit then dropDigits (count + 1) (p.past c) cs else (count, c :: cs, p)

/-- Takes the digits of an exponent as long as it fits 31 bits; the last component tells whether the
last digit taken made it too large. -/
def takeExponent (value : Nat) (p : Position) : List Char → Nat × List Char × Position × Bool
  | [] => (value, [], p, false)
  | c :: cs =>
    if c.isDigit then
      let next := value * 10 + (c.toNat - '0'.toNat)
      if next < 0x80000000 then takeExponent next (p.past c) cs else (value, cs, p.past c, true)
    else (value, c :: cs, p, false)

/-- Multiplies a number by a power of ten in one step, or divides it in steps of at most `10 ^ 308`;
none if the result is too large. -/
def scale : Nat → Float → Int → Option Float
  | 0, x, _ => some x
  | fuel + 1, x, e =>
    if e.natAbs ≤ 308 then
      if 0 ≤ e then
        let y := x * Binary64.powerOfTen e.natAbs
        if y.isInf then none else some y
      else some (x / Binary64.powerOfTen e.natAbs)
    else if x == 0.0 then some x
    else if 0 ≤ e then none
    else scale fuel (x / Binary64.powerOfTen 308) (e + 308)

/-- The number `m * 10 ^ e`, with its sign. -/
def closeFloat (negative : Bool) (m : Nat) (e : Int) : Reader Number := fun c =>
  match scale 4 (Binary64.ofInt m) e with
  | some x => .ok (.float (if negative then -x else x), c)
  | none => .error ⟨.numberOutOfRange, c.reported⟩

/-- Reads the exponent of `m * 10 ^ e` after its letter. -/
def readExponent (negative : Bool) (m : Nat) (e : Int) : Reader Number := fun c =>
  let (down, c) :=
    match c.rest with
    | '+' :: _ => (false, c.take '+')
    | '-' :: _ => (true, c.take '-')
    | _ => (false, c)
  match c.rest with
  | [] => c.failHere .eofInValue
  | d :: _ =>
    if d.isDigit then
      let (exponent, rest, position, overflow) := takeExponent 0 c.position c.rest
      let c := { c with rest, position }
      if overflow then
        if m ≠ 0 ∧ !down then c.failHere .numberOutOfRange
        else
          let (_, rest, position) := dropDigits 0 c.position c.rest
          .ok (.float (if negative then -0.0 else 0.0), { c with rest, position })
      else closeFloat negative m (if down then e - exponent else e + exponent) c
    else c.failNext .invalidNumber

/-- Reads what may follow the digits of `m * 10 ^ e`: an exponent or nothing. -/
def readScaled (negative : Bool) (m : Nat) (e : Int) : Reader Number := fun c =>
  match c.rest with
  | next :: _ =>
    if next = 'e' ∨ next = 'E' then readExponent negative m e (c.take next)
    else closeFloat negative m e c
  | [] => closeFloat negative m e c

/-- Reads a fraction after its point; digits that no longer fit are passed over. -/
def readFraction (negative : Bool) (m : Nat) (e : Int) : Reader Number := fun c =>
  let (m, count, rest, position) := takeDigits m 0 c.position c.rest
  let c := { c with rest, position }
  match c.rest with
  | [] => if count = 0 then c.failHere .eofInValue else readScaled negative m (e - count) c
  | next :: _ =>
    if next.isDigit then
      let (_, rest, position) := dropDigits 0 c.position c.rest
      readScaled negative m (e - count) { c with rest, position }
    else if count = 0 then c.failNext .invalidNumber
    else readScaled negative m (e - count) c

/-- The number whose digits have value `m`: an integer if nothing follows and it fits. -/
def readAfterInteger (negative : Bool) (m : Nat) : Reader Number := fun c =>
  match c.rest with
  | '.' :: _ => readFraction negative m 0 (c.take '.')
  | 'e' :: _ => readExponent negative m 0 (c.take 'e')
  | 'E' :: _ => readExponent negative m 0 (c.take 'E')
  | _ =>
    if !negative then .ok (.integer m, c)
    else if m = 0 ∨ 0x8000000000000000 < m then .ok (.float (-(Binary64.ofInt m)), c)
    else .ok (.integer (-(m : Int)), c)

/-- Reads the digits of a number, after its sign. A number starts with a zero only if that is its
only digit before the fraction; digits beyond 64 bits only scale it. -/
def readNumber (negative : Bool) : Reader Number := fun c =>
  match c.rest with
  | [] => c.failHere .eofInValue
  | d :: _ =>
    if d = '0' then
      let c := c.take d
      match c.rest with
      | next :: _ =>
        if next.isDigit then c.failNext .invalidNumber else readAfterInteger negative 0 c
      | [] => readAfterInteger negative 0 c
    else if d.isDigit then
      let (m, _, rest, position) := takeDigits 0 0 c.position c.rest
      let c := { c with rest, position }
      match c.rest with
      | next :: _ =>
        if next.isDigit then
          let (count, rest, position) := dropDigits 0 c.position c.rest
          let c := { c with rest, position }
          match c.rest with
          | '.' :: _ => readFraction negative m count (c.take '.')
          | _ => readScaled negative m count c
        else readAfterInteger negative m c
      | [] => readAfterInteger negative m c
    else c.failNext .invalidNumber

/-! ### Arrays, objects, values -/

/-- Reads the items of an array up to its closing bracket; `read` holds those before, last first. -/
def readItems {α : Type} (item : Reader α) : Nat → List α → Reader (List α)
  | 0, _, c => c.failHere .eofInArray
  | fuel + 1, read, c =>
    let c := c.skip
    match c.rest with
    | [] => c.failHere .eofInArray
    | ']' :: _ => .ok (read.reverse, c.take ']')
    | ',' :: _ =>
      if read.isEmpty then do
        let (value, c) ← item c
        readItems item fuel (value :: read) c
      else
        let c := (c.take ',').skip
        match c.rest with
        | [] => c.failHere .eofInValue
        | ']' :: _ => c.failNext .trailingComma
        | _ => do
          let (value, c) ← item c
          readItems item fuel (value :: read) c
    | _ =>
      if read.isEmpty then do
        let (value, c) ← item c
        readItems item fuel (value :: read) c
      else c.failNext .expectedCommaOrBracket

/-- Takes the colon after a key. -/
def readColon (c : Cursor) : Except ReadError Cursor :=
  let c := c.skip
  match c.rest with
  | [] => c.failHere .eofInObject
  | ':' :: _ => .ok (c.take ':')
  | _ => c.failNext .expectedColon

/-- Goes to the quote of the next key of an object; none at its closing brace, which is not taken.
`first` says that no member was read yet. -/
def nextKey (first : Bool) (c : Cursor) : Except ReadError (Option Cursor) :=
  let c := c.skip
  match c.rest with
  | [] => c.failHere .eofInObject
  | '\x7d' :: _ => .ok none
  | ',' :: _ =>
    if first then c.failNext .keyMustBeString
    else
      let c := (c.take ',').skip
      match c.rest with
      | [] => c.failHere .eofInValue
      | '"' :: _ => .ok (some c)
      | '\x7d' :: _ => c.failNext .trailingComma
      | _ => c.failNext .keyMustBeString
  | '"' :: _ => if first then .ok (some c) else c.failNext .expectedCommaOrBrace
  | _ => if first then c.failNext .keyMustBeString else c.failNext .expectedCommaOrBrace

/-- Reads the members of an object up to its closing brace, in the order of the text. -/
def readMembers {α : Type} (value : Reader α) :
    Nat → List (String × α) → Reader (List (String × α))
  | 0, _, c => c.failHere .eofInObject
  | fuel + 1, read, c => do
    match ← nextKey read.isEmpty c with
    | none => .ok (read.reverse, c.skip.take '\x7d')
    | some c =>
      let (key, c) ← readString c
      let c ← readColon c
      let (item, c) ← value c
      readMembers value fuel ((key, item) :: read) c

/-- The words `null`, `true` and `false`, by their first letter. -/
def word? (c : Char) : Option (List Char × Value) :=
  match c with
  | 'n' => some ("null".toList, .null)
  | 't' => some ("true".toList, .bool true)
  | 'f' => some ("false".toList, .bool false)
  | _ => none

/-- Reads a number that starts with a digit or a minus. -/
def readSigned : Reader Number := fun c =>
  match c.rest with
  | '-' :: _ => readNumber true (c.take '-')
  | _ => readNumber false c

/-- Reads a value; `depth` is one more than the number of brackets that may still be opened. -/
def readValue : Nat → Reader Value
  | 0, c => c.failNext .recursionLimit
  | depth + 1, c =>
    let c := c.skip
    match c.rest with
    | [] => c.failHere .eofInValue
    | '"' :: _ => do
      let (text, c) ← readString c
      .ok (.string text, c)
    | '[' :: _ =>
      if depth = 0 then c.failNext .recursionLimit
      else do
        let (items, c) ← readItems (readValue depth) c.rest.length [] (c.take '[')
        .ok (.array items, c)
    | '\x7b' :: _ =>
      if depth = 0 then c.failNext .recursionLimit
      else do
        let (entries, c) ← readMembers (readValue depth) c.rest.length [] (c.take '\x7b')
        .ok (.ofEntries entries, c)
    | next :: _ =>
      match word? next with
      | some (word, value) => do
        let c ← readWord word c
        .ok (value, c)
      | none =>
        if next = '-' ∨ next.isDigit then do
          let (n, c) ← readSigned c
          .ok (.number n, c)
        else c.failNext .expectedValue

/-- How many brackets may be open at once, plus one. -/
def depthLimit : Nat := 128

/-- Requires that nothing but blanks is left. -/
def finish (c : Cursor) : Except ReadError Unit :=
  let c := c.skip
  match c.rest with
  | [] => .ok ()
  | _ => c.failNext .trailingCharacters

/-- The value that a text denotes. -/
def parse (text : String) : Except ReadError Value := do
  let (value, c) ← readValue depthLimit (.ofText text)
  finish c
  .ok value

/-! ### Passing over a value -/

/-- Passes over the digits of a number that is not asked for, after its sign. -/
def skipNumber (c : Cursor) : Except ReadError Cursor := do
  let digits (c : Cursor) : Nat × Cursor :=
    let (count, rest, position) := dropDigits 0 c.position c.rest
    (count, { c with rest, position })
  let exponent (c : Cursor) : Except ReadError Cursor :=
    let c :=
      match c.rest with
      | '+' :: _ => c.take '+'
      | '-' :: _ => c.take '-'
      | _ => c
    match digits c with
    | (0, _) => c.failNext .invalidNumber
    | (_, c) => .ok c
  let scaled (c : Cursor) : Except ReadError Cursor :=
    match c.rest with
    | 'e' :: _ => exponent (c.take 'e')
    | 'E' :: _ => exponent (c.take 'E')
    | _ => .ok c
  let whole ←
    match c.rest with
    | [] => c.failHere .invalidNumber
    | d :: _ =>
      if d = '0' then
        let c := c.take d
        match c.rest with
        | next :: _ => if next.isDigit then c.failNext .invalidNumber else .ok c
        | [] => .ok c
      else if d.isDigit then .ok (digits c).2
      else c.failNext .invalidNumber
  match whole.rest with
  | '.' :: _ =>
    match digits (whole.take '.') with
    | (0, c) => c.failNext .invalidNumber
    | (_, c) => scaled c
  | _ => scaled whole

/-- Goes on after a value or an opening bracket that is passed over: to the next value of the
innermost bracket, or past all closing ones. The stack holds the kinds of the open brackets, `true`
for objects; it is returned as it then is. `after` says that a value came before. -/
def skipBetween : Nat → Bool → List Bool → Cursor → Except ReadError (List Bool × Cursor)
  | 0, _, _, c => c.failHere .eofInValue
  | _ + 1, _, [], c => .ok ([], c)
  | fuel + 1, after, isObject :: outer, c => do
    let c := c.skip
    let enter (c : Cursor) : Except ReadError (List Bool × Cursor) := do
      let c := c.skip
      if isObject then
        match c.rest with
        | [] => c.failHere .eofInObject
        | '"' :: _ => .ok (isObject :: outer, ← readColon (← skipString c))
        | _ => c.failNext .keyMustBeString
      else .ok (isObject :: outer, c)
    match c.rest with
    | [] => c.failHere (if isObject then .eofInObject else .eofInArray)
    | next :: _ =>
      if next = ',' ∧ after then enter (c.take ',')
      else if next = (if isObject then '\x7d' else ']') then
        skipBetween fuel true outer (c.take next)
      else if after then
        c.failNext (if isObject then .expectedCommaOrBrace else .expectedCommaOrBracket)
      else enter c

/-- Passes over a value that is not asked for; brackets may be nested to any depth. `stack` holds
the kinds of the open brackets, the innermost first. -/
def skipValues : Nat → List Bool → Cursor → Except ReadError Cursor
  | 0, _, c => c.failHere .eofInValue
  | fuel + 1, stack, c => do
    let c := c.skip
    let (after, stack, c) ←
      match c.rest with
      | [] => c.failHere .eofInValue
      | '"' :: _ => do .ok (true, stack, ← skipString c)
      | '[' :: _ => .ok (false, false :: stack, c.take '[')
      | '\x7b' :: _ => .ok (false, true :: stack, c.take '\x7b')
      | next :: _ =>
        match word? next with
        | some (word, _) => do .ok (true, stack, ← readWord word c)
        | none =>
          if next = '-' then do .ok (true, stack, ← skipNumber (c.take '-'))
          else if next.isDigit then do .ok (true, stack, ← skipNumber c)
          else c.failNext .expectedValue
    match ← skipBetween (c.rest.length + 2) after stack c with
    | ([], c) => .ok c
    | (stack, c) => skipValues fuel stack c

/-- Passes over one value. -/
def skipValue (c : Cursor) : Except ReadError Cursor :=
  skipValues (c.rest.length + 1) [] c

end Folio.Json
