import Folio.Number.Decimal

/-!
# Binary floating-point numbers

Sizes and positions on a page are binary numbers of 32 bits, numbers in data are binary numbers of
64 bits. Here are the exact conversions between the two, from integers and to integers, and the
decimal texts of both.
-/

set_option autoImplicit false

namespace Folio

open Float.Model (Format UnpackedFloat)
open Float.Model.UnpackedFloat (Sign)

/-- The shortest decimal that reads back as a finite number of the format. -/
def Decimal.ofBinary (format : Format) (digits m : Nat) (q : Int) : Decimal :=
  let atBoundary := m == Nat.pow 2 format.mantissaBitsWithoutImplicit && format.minExponent < q
  shortest (around m q atBoundary) digits

namespace Binary32

/-- The number of 32 bits nearest to one of 64 bits; ties go to the even mantissa and what is too
large becomes infinite. -/
def ofFloat (x : Float) : Float32 :=
  match x.toModel.unpack with
  | .finite sign m q _ => .ofModel (.pack (.round .binary32 sign m q))
  | other => .ofModel (.pack other)

/-- The same number with 64 bits. -/
def toFloat (x : Float32) : Float :=
  match x.toModel.unpack with
  | .finite sign m q _ => .ofModel (.pack (.round .binary64 sign m q))
  | other => .ofModel (.pack other)

/-- The number of 32 bits nearest to an integer. -/
def ofInt (n : Int) : Float32 :=
  .ofModel (.pack (.ofInt .binary32 n))

/-- The number of 32 bits nearest to `m * 10 ^ e`. -/
def ofDecimal (m : Nat) (e : Int) : Float32 :=
  .ofModel (.pack (.ofScientific .binary32 m e))

def infinity : Float32 := .ofModel (.pack (.infinity .positive))

def nan : Float32 := .ofModel (.pack .notANumber)

/-- The nearest integer; a half goes away from zero, and what is not finite counts as zero. -/
def roundToInt (x : Float32) : Int :=
  match x.toModel.unpack with
  | .finite sign m q _ =>
    let twice := if 0 ≤ q then 2 * m * Nat.pow 2 q.toNat else 2 * m / Nat.pow 2 (-q).toNat
    sign.apply ((twice + 1) / 2 : Nat)
  | _ => 0

/-- The shortest decimal text that reads back as the number: positional, without a fraction for
integers. -/
def text (x : Float32) : String :=
  match x.toModel.unpack with
  | .notANumber => "NaN"
  | .infinity .positive => "inf"
  | .infinity .negative => "-inf"
  | .zero .positive => "0"
  | .zero .negative => "-0"
  | .finite sign m q _ =>
    let digits := (Decimal.ofBinary .binary32 9 m q).positional
    String.ofList (match sign with | .negative => '-' :: digits | .positive => digits)

end Binary32

namespace Binary64

/-- The number of 64 bits nearest to an integer. -/
def ofInt (n : Int) : Float :=
  .ofModel (.pack (.ofInt .binary64 n))

/-- The power of ten nearest to `10 ^ n`. -/
def powerOfTen (n : Nat) : Float :=
  .ofModel (.pack (.ofScientific .binary64 1 n))

end Binary64

/-- Reads digits from the front of a text: their value after `value`, and how many there are. -/
def readDigits (value count : Nat) : List Char → Nat × Nat × List Char
  | [] => (value, count, [])
  | c :: cs =>
    if c.isDigit then readDigits (value * 10 + (c.toNat - '0'.toNat)) (count + 1) cs
    else (value, count, c :: cs)

/-- An optional sign at the front of a text: whether it is a minus, and the rest. -/
def readSign : List Char → Bool × List Char
  | '-' :: cs => (true, cs)
  | '+' :: cs => (false, cs)
  | cs => (false, cs)

namespace Binary32

/-- The unsigned number that a decimal text denotes: digits with an optional fraction and an
optional exponent, and at least one digit before the exponent. -/
def parseDecimal? (text : List Char) : Option Float32 :=
  let (whole, wholeCount, rest) := readDigits 0 0 text
  let (m, fractionCount, rest) :=
    match rest with
    | '.' :: more => readDigits whole 0 more
    | _ => (whole, 0, rest)
  if wholeCount + fractionCount = 0 then none
  else
    match rest with
    | [] => some (ofDecimal m (-fractionCount))
    | e :: more =>
      if e = 'e' ∨ e = 'E' then
        let (negative, more) := readSign more
        match readDigits 0 0 more with
        | (_, 0, _) => none
        | (exponent, _, []) =>
          some (ofDecimal m ((if negative then -(exponent : Int) else exponent) - fractionCount))
        | _ => none
      else none

/-- The number that a text denotes: a decimal or one of the words for what is not finite, with an
optional sign. -/
def parse? (text : String) : Option Float32 :=
  let (negative, body) := readSign text.toList
  let magnitude :=
    match body.map Char.toLower with
    | ['i', 'n', 'f'] => some infinity
    | ['i', 'n', 'f', 'i', 'n', 'i', 't', 'y'] => some infinity
    | ['n', 'a', 'n'] => some nan
    | _ => parseDecimal? body
  magnitude.map fun x => if negative then -x else x

end Binary32

end Folio
