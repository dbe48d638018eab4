/-!
# Punycode

A label of a domain name with characters outside ASCII is written in ASCII: its ASCII characters,
then a hyphen, then where the others are put in, as numbers of variable length. `encode` writes that
form and `decode?` reads it.
-/

set_option autoImplicit false

namespace Folio.Punycode

/-- How many values a digit has. -/
def base : Nat := 36

/-- The first code point outside ASCII. -/
def firstCode : Nat := 0x80

/-- What the thresholds of the first number are measured from. -/
def firstBias : Nat := 72

/-- Divides a number until it is small: how far the thresholds move, and what is left. -/
def shrink (n : Nat) : Nat × Nat :=
  if 455 < n then
    let (moved, left) := shrink (n / 35)
    (moved + base, left)
  else (0, n)
termination_by n
decreasing_by exact Nat.div_lt_self (by omega) (by decide)

/-- What the thresholds of the next number are measured from, after a number that made a text of
`count` characters. -/
def adapt (delta count : Nat) (first : Bool) : Nat :=
  let halved := if first then delta / 700 else delta / 2
  let (moved, left) := shrink (halved + halved / count)
  moved + base * left / (left + 38)

/-- A digit below its threshold is the last of a number; `weight` is how far the digit is from the
start, in steps of `base`. -/
def threshold (bias weight : Nat) : Nat :=
  if weight ≤ bias then 1 else if bias + 26 ≤ weight then 26 else weight - bias

/-- The value of a digit. -/
def digit? (c : Char) : Option Nat :=
  if 'a' ≤ c ∧ c ≤ 'z' then some (c.toNat - 'a'.toNat)
  else if 'A' ≤ c ∧ c ≤ 'Z' then some (c.toNat - 'A'.toNat)
  else if '0' ≤ c ∧ c ≤ '9' then some (c.toNat - '0'.toNat + 26)
  else none

/-- The digit with a value below `base`. -/
def digit (value : Nat) : Char :=
  if value < 26 then Char.ofNat ('a'.toNat + value) else Char.ofNat ('0'.toNat + (value - 26))

/-! ### Reading -/

/-- Reads a number and adds it to `n`: the sum, which must fit 32 bits, and what follows. -/
def readNumber (bias weight scale n : Nat) : List Char → Option (Nat × List Char)
  | [] => none
  | c :: cs => do
    let value ← digit? c
    let n := n + value * scale
    let limit := threshold bias weight
    if UInt32.size ≤ n then none
    else if value < limit then some (n, cs)
    else if UInt32.size ≤ scale * (base - limit) then none
    else readNumber bias (weight + base) (scale * (base - limit)) n cs

/-- Puts characters into a text as the numbers say, one for each; `fuel` bounds how many. The last
character put in had the code point `code`, and `place` is behind it. -/
def insertFrom : Nat → List Char → Nat → Nat → Nat → List Char → Option (List Char)
  | _, text, _, _, _, [] => some text
  | 0, _, _, _, _, _ :: _ => none
  | fuel + 1, text, code, bias, place, c :: cs => do
    let (n, rest) ← readNumber bias base 1 place (c :: cs)
    let count := text.length + 1
    let code := code + n / count
    if code < 0xD800 ∨ (0xDFFF < code ∧ code < 0x110000) then
      insertFrom fuel (text.insertIdx (n % count) (Char.ofNat code)) code
        (adapt (n - place) count (place == 0)) (n % count + 1) rest
    else none

/-- The text that a label in ASCII stands for, if it is one of this form. -/
def decode? (label : List Char) : Option (List Char) :=
  let numbers := (label.reverse.takeWhile (· != '-')).reverse
  let plain := label.take (label.length - numbers.length - 1)
  if label.head? = some '-' ∧ plain.isEmpty then none
  else insertFrom numbers.length plain firstCode firstBias 0 numbers

/-! ### Writing -/

/-- The digits of a number; `fuel` bounds how many. -/
def writeNumber (bias : Nat) : Nat → Nat → Nat → List Char
  | 0, _, _ => []
  | fuel + 1, weight, n =>
    let limit := threshold bias weight
    if n < limit then [digit n]
    else
      digit (limit + (n - limit) % (base - limit)) ::
        writeNumber bias fuel (weight + base) ((n - limit) / (base - limit))

/-- The least code point of a text that is not below a bound. -/
def leastCode? (bound : Nat) (text : List Char) : Option Nat :=
  ((text.map Char.toNat).filter (bound ≤ ·)).min?

/-- The numbers that put the characters with one code point into a text that has all those before
it: the digits, the distance left over, the bias, and how many characters are in the text. -/
def writeCode (code basic : Nat) : List Char → Nat → Nat → Nat → List Char × Nat × Nat × Nat
  | [], delta, bias, done => ([], delta, bias, done)
  | c :: cs, delta, bias, done =>
    if c.toNat < code then writeCode code basic cs (delta + 1) bias done
    else if c.toNat = code then
      let (digits, state) :=
        writeCode code basic cs 0 (adapt delta (done + 1) (done == basic)) (done + 1)
      (writeNumber bias (delta + 1) base delta ++ digits, state)
    else writeCode code basic cs delta bias done

/-- The numbers for all characters from a code point on; `fuel` bounds how many code points. -/
def writeCodes (text : List Char) (basic : Nat) : Nat → Nat → Nat → Nat → Nat → List Char
  | 0, _, _, _, _ => []
  | fuel + 1, code, delta, bias, done =>
    match leastCode? code text with
    | none => []
    | some next =>
      let (digits, delta, bias, done) :=
        writeCode next basic text (delta + (next - code) * (done + 1)) bias done
      digits ++ writeCodes text basic fuel (next + 1) (delta + 1) bias done

/-- The form in ASCII of a label. -/
def encode (label : List Char) : List Char :=
  let plain := label.filter (·.toNat < firstCode)
  let numbers := writeCodes label plain.length label.length firstCode 0 firstBias plain.length
  (if plain.isEmpty then [] else plain ++ ['-']) ++ numbers

end Folio.Punycode
