/-!
# Shortest decimals

`Decimal.shortest` finds the decimal of fewest digits that lies in an interval around a value, and
among those the nearest to the value. Around a binary number that interval is what rounds to it, so
the digits found are the fewest that read back as the same number.
-/

set_option autoImplicit false

namespace Folio

/-- A positive decimal number `0.d₁d₂… × 10 ^ point`; the digits neither start nor end with a
zero. -/
structure Decimal where
  digits : List Char
  point : Int
deriving DecidableEq, Repr

namespace Decimal

/-- A quotient of natural numbers, `num / den`. -/
structure Ratio where
  num : Nat
  den : Nat

namespace Ratio

/-- The number `m * 2 ^ q`. -/
def dyadic (m : Nat) (q : Int) : Ratio :=
  ⟨m * Nat.pow 2 q.toNat, Nat.pow 2 (-q).toNat⟩

/-- The number `m * 10 ^ e`. -/
def decadic (m : Nat) (e : Int) : Ratio :=
  ⟨m * Nat.pow 10 e.toNat, Nat.pow 10 (-e).toNat⟩

def le (a b : Ratio) : Bool := a.num * b.den ≤ b.num * a.den

def lt (a b : Ratio) : Bool := a.num * b.den < b.num * a.den

/-- The greatest natural number of units that is not above the quotient. -/
def floorBy (a unit : Ratio) : Nat :=
  (a.num * unit.den) / (a.den * unit.num)

end Ratio

/-- The numbers around a value that count as the value. -/
structure Interval where
  value : Ratio
  lower : Ratio
  upper : Ratio
  closed : Bool

/-- Whether a number lies in the interval, its ends included if it is closed. -/
def Interval.holds (i : Interval) (x : Ratio) : Bool :=
  if i.closed then i.lower.le x && x.le i.upper else i.lower.lt x && x.lt i.upper

/-- The exponent `e` with `10 ^ e ≤ x < 10 ^ (e + 1)`, found by a walk from an estimate. -/
def exponentFrom (x : Ratio) : Nat → Int → Int
  | 0, e => e
  | fuel + 1, e =>
    if x.lt (.decadic 1 e) then exponentFrom x fuel (e - 1)
    else if (Ratio.decadic 1 (e + 1)).le x then exponentFrom x fuel (e + 1)
    else e

/-- The exponent of the leading decimal digit of a positive number. -/
def exponentOf (x : Ratio) : Int :=
  let estimate : Int := ((x.num.log2 : Int) - (x.den.log2 : Int)) * 30103 / 100000
  exponentFrom x 8 estimate

/-- Of the two neighbours of the value on the grid of `unit`, the one in the interval; the nearer
if both are, and the even one if they are equally near. -/
def onGrid (i : Interval) (unit : Int) : Option Nat :=
  let below := i.value.floorBy (.decadic 1 unit)
  let low := Ratio.decadic below unit
  let high := Ratio.decadic (below + 1) unit
  match i.holds low, i.holds high with
  | true, true =>
    -- twice the value against the sum of the two neighbours
    let twice : Ratio := ⟨2 * i.value.num, i.value.den⟩
    let sum := Ratio.decadic (2 * below + 1) unit
    if twice.lt sum then some below
    else if sum.lt twice then some (below + 1)
    else if below % 2 = 0 then some below else some (below + 1)
  | true, false => some below
  | false, true => some (below + 1)
  | false, false => none

/-- The decimal `n * 10 ^ unit` without leading and trailing zeros. -/
def ofScaled (n : Nat) (unit : Int) : Decimal :=
  let digits := Nat.toDigits 10 n
  { digits := (digits.reverse.dropWhile (· == '0')).reverse
    point := digits.length + unit }

/-- The first grid of `count` or more digits with a point in the interval. -/
def search (i : Interval) (exponent : Int) : Nat → Nat → Decimal
  | 0, count =>
    ofScaled (i.value.floorBy (.decadic 1 (exponent + 1 - count))) (exponent + 1 - count)
  | fuel + 1, count =>
    match onGrid i (exponent + 1 - count) with
    | some n => ofScaled n (exponent + 1 - count)
    | none => search i exponent fuel (count + 1)

/-- The decimal of fewest digits in the interval, the nearest to its value. -/
def shortest (i : Interval) (digits : Nat) : Decimal :=
  search i (exponentOf i.value) digits 1

/-- What rounds to `m * 2 ^ q`; `gap` says that the numbers below it lie twice as dense. -/
def around (m : Nat) (q : Int) (gap : Bool) : Interval where
  value := .dyadic m q
  lower := if gap then .dyadic (4 * m - 1) (q - 2) else .dyadic (2 * m - 1) (q - 1)
  upper := .dyadic (2 * m + 1) (q - 1)
  closed := m % 2 = 0

/-- The digits of a decimal in positional notation; `point` is written only before a fraction. -/
def positional (d : Decimal) : List Char :=
  if d.point ≤ 0 then
    ['0', '.'] ++ List.replicate (-d.point).toNat '0' ++ d.digits
  else
    let whole := d.digits.take d.point.toNat
    let fraction := d.digits.drop d.point.toNat
    whole ++ List.replicate (d.point.toNat - whole.length) '0' ++
      (if fraction.isEmpty then [] else '.' :: fraction)

/-- The digits of a decimal as `d.ddd` with an exponent, whose sign is always written. -/
def scientific (d : Decimal) : List Char :=
  let exponent := d.point - 1
  let mantissa :=
    match d.digits with
    | [] => ['0']
    | [digit] => [digit]
    | digit :: rest => digit :: '.' :: rest
  mantissa ++ ['e', if exponent < 0 then '-' else '+'] ++ Nat.toDigits 10 exponent.natAbs

end Decimal

end Folio
