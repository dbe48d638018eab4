import Folio.Text.Lowercase
import Folio.Text.Split
import Folio.Url.DomainTable
import Folio.Url.Percent
import Folio.Url.Punycode

/-!
# Hosts

A host in brackets is an IPv6 address. For the special schemes a host whose last part is a number is
an IPv4 address, in any of its notations, and everything else is a domain name, whose labels are
brought to ASCII. For other schemes the host is kept as it is written.
-/

set_option autoImplicit false

namespace Folio.Url

/-- What is wrong with an address. -/
inductive Fault where
  | relativeWithoutBase
  | emptyHost
  | invalidPort
  | invalidIpv4
  | invalidIpv6
  | invalidDomainName
  | invalidDomainCharacter
deriving DecidableEq, Repr

def Fault.message : Fault → String
  | .relativeWithoutBase => "relative URL without a base"
  | .emptyHost => "empty host"
  | .invalidPort => "invalid port number"
  | .invalidIpv4 => "invalid IPv4 address"
  | .invalidIpv6 => "invalid IPv6 address"
  | .invalidDomainName => "invalid international domain name"
  | .invalidDomainCharacter => "invalid domain character"

/-- The host of an address. -/
inductive Host where
  | domain (name : List Char)
  | ipv4 (address : Nat)
  /-- Eight groups of 16 bits. -/
  | ipv6 (groups : List Nat)
deriving DecidableEq, Repr

/-! ### IPv4 -/

/-- The number that digits denote in a base, if all of them are digits of it. -/
def numeral? (base : Nat) (digits : List Char) : Option Nat :=
  digits.foldlM
    (fun n c => (digit? c).bind fun d => if d < base then some (n * base + d) else none) 0

/-- The number that a part of an IPv4 address denotes: decimal, octal after a zero, hexadecimal
after `0x`. -/
def ipv4Number? : List Char → Option Nat
  | [] => none
  | '0' :: 'x' :: digits => numeral? 16 digits
  | '0' :: 'X' :: digits => numeral? 16 digits
  | ['0'] => some 0
  | '0' :: digits => numeral? 8 digits
  | digits => numeral? 10 digits

/-- The parts of a dotted name; a dot at the end makes no part of its own. -/
def dottedParts (name : List Char) : List (List Char) :=
  let parts := Text.splitWhere (· == '.') name
  if 1 < parts.length ∧ parts.getLast? = some [] then parts.dropLast else parts

/-- Whether the last part of a name is a number, so that the name must be an IPv4 address. -/
def endsInNumber (name : List Char) : Bool :=
  match (dottedParts name).getLast? with
  | none => false
  | some last => (!last.isEmpty && last.all Char.isDigit) || (ipv4Number? last).isSome

/-- The address that the parts of an IPv4 address denote; the last part fills what the parts before
it leave. -/
def parseIpv4 (name : List Char) : Except Fault Nat :=
  match (dottedParts name).mapM ipv4Number? with
  | none => .error .invalidIpv4
  | some numbers =>
    let heads := numbers.dropLast
    let last := numbers.getLast?.getD 0
    let room := Nat.pow 256 (4 - heads.length)
    if 3 < heads.length ∨ room ≤ last ∨ heads.any (255 < ·) then .error .invalidIpv4
    else .ok (heads.foldl (fun n head => n * 256 + head) 0 * room + last)

/-- The four bytes of an IPv4 address, with dots between them. -/
def ipv4Text (address : Nat) : List Char :=
  Text.joinWith ['.'] ([24, 16, 8, 0].map fun bits =>
    Nat.toDigits 10 ((address >>> bits) % 256))

/-! ### IPv6 -/

/-- The byte that decimal digits without leading zeros denote. -/
def ipv4Byte? (digits : List Char) : Option Nat :=
  match digits with
  | [] => none
  | ['0'] => some 0
  | '0' :: _ => none
  | _ => (numeral? 10 digits).bind fun n => if n ≤ 255 then some n else none

/-- The two groups that an IPv4 address at the end of an IPv6 address makes. -/
def ipv4Groups? (text : List Char) : Option (List Nat) :=
  match (Text.splitWhere (· == '.') text).mapM ipv4Byte? with
  | some [a, b, c, d] => some [a * 256 + b, c * 256 + d]
  | _ => none

/-- A group of one to four hexadecimal digits. -/
def group? (digits : List Char) : Option Nat :=
  if digits.isEmpty ∨ 4 < digits.length then none else numeral? 16 digits

/-- The groups of a piece of an IPv6 address without `::`; only the last may be in IPv4 notation. -/
def groups? : List (List Char) → Option (List Nat)
  | [] => some []
  | [last] => if last.contains '.' then ipv4Groups? last else (group? last).map ([·])
  | first :: rest => do
    let group ← group? first
    let groups ← groups? rest
    some (group :: groups)

/-- The pieces of a text between colons; an empty text has none. -/
def colonPieces (text : List Char) : List (List Char) :=
  if text.isEmpty then [] else Text.splitWhere (· == ':') text

/-- Splits a text at its first `::`. -/
def splitCompressed : List Char → Option (List Char × List Char)
  | ':' :: ':' :: rest => some ([], rest)
  | c :: rest => (splitCompressed rest).map fun (before, after) => (c :: before, after)
  | [] => none

/-- The groups of an IPv6 address; `::` stands for as many zero groups as are missing, at least
one. -/
def parseIpv6 (text : List Char) : Except Fault (List Nat) :=
  let groups : Option (List Nat) :=
    match splitCompressed text with
    | none => (groups? (colonPieces text)).filter (·.length == 8)
    | some (before, after) =>
      if before.contains '.' then none
      else do
        let left ← groups? (colonPieces before)
        let right ← groups? (colonPieces after)
        if left.length + right.length < 8 then
          some (left ++ List.replicate (8 - left.length - right.length) 0 ++ right)
        else none
  match groups with
  | some groups => .ok groups
  | none => .error .invalidIpv6

/-- The length of the run of zeros that a list starts with. -/
def zeroRun (groups : List Nat) : Nat :=
  (groups.takeWhile (· == 0)).length

/-- The start and the length of the first longest run of zeros, from position `start`. -/
def longestRun (start : Nat) : List Nat → Nat × Nat
  | [] => (start, 0)
  | g :: groups =>
    let later := longestRun (start + 1) groups
    let here := zeroRun (g :: groups)
    if later.2 ≤ here then (start, here) else later

/-- The text of an IPv6 address: the first longest run of two or more zero groups becomes `::`. -/
def ipv6Text (groups : List Nat) : List Char :=
  let written (groups : List Nat) := Text.joinWith [':'] (groups.map Text.hexNumeral)
  let (start, length) := longestRun 0 groups
  if length < 2 then written groups
  else written (groups.take start) ++ [':', ':'] ++ written (groups.drop (start + length))

/-! ### Hosts as a whole -/

/-- What no domain name may hold. -/
def forbiddenInDomain (c : Char) : Bool :=
  c.toNat ≤ 0x20 || c.toNat == 0x7F ||
    ['%', '#', '/', ':', '<', '>', '?', '@', '[', '\\', ']', '^', '|'].contains c

/-- What a host kept as written may not hold. -/
def forbiddenInHost (c : Char) : Bool :=
  ['\x00', '\t', '\n', '\r', ' ', '#', '/', ':', '<', '>', '?', '@', '[', '\\', ']', '^',
    '|'].contains c

/-- The inside of a text in brackets. -/
def bracketed? (text : List Char) : Option (Except Fault Host) :=
  match text with
  | '[' :: rest =>
    if rest.getLast? = some ']' then some ((parseIpv6 rest.dropLast).map .ipv6)
    else some (.error .invalidIpv6)
  | _ => none

/-- Whether a code point is in one of the runs of the table. -/
def inDomainRuns (code : Nat) : Bool :=
  domainRuns.any fun (first, last, step) =>
    first ≤ code && code ≤ last && (code - first) % step == 0

/-- Whether a character may stand in a label outside ASCII. -/
def isDomainChar (c : Char) : Bool :=
  c.toNat < Punycode.firstCode || inDomainRuns c.toNat

/-- What begins a label that stands for one with characters outside ASCII. -/
def encodedMark : List Char := ['x', 'n', '-', '-']

/-- The form in ASCII of a label in lower case, if it is a label of a domain name. -/
def asciiLabel? (label : List Char) : Option (List Char) :=
  if encodedMark.isPrefixOf label then
    match Punycode.decode? (label.drop encodedMark.length) with
    | some decoded =>
      if decoded.all isDomainChar && !decoded.all (·.toNat < Punycode.firstCode) then some label
      else none
    | none => none
  else if label.all (·.toNat < Punycode.firstCode) then some label
  else if label.all isDomainChar then some (encodedMark ++ Punycode.encode label)
  else none

/-- A domain name in lower case and in ASCII, if it is one. Characters are brought to lower case and
nothing else: those that stand for others in domain names, such as letters of full width and
ligatures, are refused and not replaced. -/
def asciiDomain? (name : List Char) : Option (List Char) := do
  let labels ← (Text.splitWhere (· == '.') (name.flatMap Text.lowercaseChar)).mapM asciiLabel?
  let name := Text.joinWith ['.'] labels
  if name.any forbiddenInDomain then none else some name

/-- The host of a special scheme: decoded, in lower case and in ASCII. -/
def parseDomain (text : List Char) : Except Fault Host :=
  match (String.fromUTF8? ⟨(decode text).toArray⟩).bind fun name => asciiDomain? name.toList with
  | none => .error .invalidDomainName
  | some name =>
    if name.isEmpty then .error .emptyHost
    else if endsInNumber name then (parseIpv4 name).map .ipv4
    else .ok (.domain name)

/-- The host that a text denotes in an address of a special scheme or of another. -/
def parseHost (special : Bool) (text : List Char) : Except Fault Host :=
  match bracketed? text with
  | some result => result
  | none =>
    if special then parseDomain text
    else if text.any forbiddenInHost then .error .invalidDomainCharacter
    else .ok (.domain (encode isControl text))

def Host.text : Host → List Char
  | .domain name => name
  | .ipv4 address => ipv4Text address
  | .ipv6 groups => '[' :: ipv6Text groups ++ [']']

end Folio.Url
