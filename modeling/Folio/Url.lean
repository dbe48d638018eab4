import Folio.Url.Host

/-!
# Addresses

An address is read by the rules for absolute URLs: a scheme, then for the special schemes (and after
two slashes for all others) credentials, host and port, then a path, a query and a fragment. Reading
brings it to a normal form, and `text` writes that form.
-/

set_option autoImplicit false

namespace Folio

namespace Url

/-- Who and where to ask. -/
structure Authority where
  username : List Char
  password : List Char
  host : Host
  port : Option Nat
deriving DecidableEq, Repr

/-- The path of an address. -/
inductive Path where
  /-- A path of segments, each written after a slash. -/
  | rooted (segments : List (List Char))
  /-- A path without structure. -/
  | plain (text : List Char)
deriving DecidableEq, Repr

end Url

/-- An absolute address in normal form. -/
structure Url where
  scheme : List Char
  authority : Option Url.Authority
  path : Url.Path
  query : Option (List Char)
  fragment : Option (List Char)
deriving DecidableEq, Repr

namespace Url

/-- The schemes with rules of their own, and their default ports. -/
def specialSchemes : List (List Char × Option Nat) := [
  ("http".toList, some 80), ("https".toList, some 443), ("ws".toList, some 80),
  ("wss".toList, some 443), ("ftp".toList, some 21), ("file".toList, none)]

def isSpecial (scheme : List Char) : Bool :=
  (specialSchemes.lookup scheme).isSome

def defaultPort? (scheme : List Char) : Option Nat :=
  (specialSchemes.lookup scheme).join

def isFile (scheme : List Char) : Bool :=
  scheme == ['f', 'i', 'l', 'e']

/-! ### Writing -/

def Path.text : Path → List Char
  | .rooted segments => segments.flatMap ('/' :: ·)
  | .plain text => text

def Authority.text (a : Authority) : List Char :=
  let password := if a.password.isEmpty then [] else ':' :: a.password
  let credentials :=
    if a.username.isEmpty && a.password.isEmpty then [] else a.username ++ password ++ ['@']
  let port := match a.port with
    | some port => ':' :: Nat.toDigits 10 port
    | none => []
  credentials ++ a.host.text ++ port

/-- The characters of an address. A path that starts with two slashes is kept apart from an
authority by a dot. -/
def chars (url : Url) : List Char :=
  let authority := match url.authority with
    | some a => ['/', '/'] ++ a.text
    | none =>
      match url.path.text with
      | '/' :: '/' :: _ => ['/', '.']
      | _ => []
  let query := match url.query with
    | some query => '?' :: query
    | none => []
  let fragment := match url.fragment with
    | some fragment => '#' :: fragment
    | none => []
  url.scheme ++ ':' :: authority ++ url.path.text ++ query ++ fragment

/-- An address as a string. -/
def text (url : Url) : String :=
  String.ofList url.chars

/-! ### Reading -/

/-- The text that is read: controls and spaces at its ends do not count, nor do tabs and line breaks
anywhere. -/
def normalizeInput (text : List Char) : List Char :=
  let edge (c : Char) : Bool := c.toNat ≤ 0x20
  let inside := ((text.dropWhile edge).reverse.dropWhile edge).reverse
  inside.filter fun c => !(c == '\t' || c == '\n' || c == '\r')

/-- The scheme at the start of a text, in lower case, and what follows its colon. -/
def splitScheme (text : List Char) : Option (List Char × List Char) :=
  let inScheme (c : Char) : Bool := c.isAlphanum || c == '+' || c == '-' || c == '.'
  match text with
  | c :: _ =>
    if c.isAlpha then
      match text.dropWhile inScheme with
      | ':' :: rest => some ((text.takeWhile inScheme).map Char.toLower, rest)
      | _ => none
    else none
  | [] => none

/-- Whether a character ends the authority. -/
def endsAuthority (special : Bool) (c : Char) : Bool :=
  c == '/' || c == '?' || c == '#' || (special && c == '\\')

/-- Splits a text at its last `@`. -/
def splitLastAt (text : List Char) : Option (List Char × List Char) :=
  match text.reverse.dropWhile (· != '@') with
  | _ :: before => some (before.reverse, (text.reverse.takeWhile (· != '@')).reverse)
  | [] => none

/-- The user name and the password of credentials, encoded. -/
def parseCredentials (text : List Char) : List Char × List Char :=
  match text.dropWhile (· != ':') with
  | _ :: password =>
    (encode inUserinfo (text.takeWhile (· != ':')), encode inUserinfo password)
  | [] => (encode inUserinfo text, [])

/-- Splits a text at the first colon that is not in brackets. -/
def hostPart (inside : Bool) : List Char → List Char × List Char
  | [] => ([], [])
  | c :: cs =>
    if c = ':' ∧ !inside then ([], c :: cs)
    else
      let inside := if c = '[' then true else if c = ']' then false else inside
      let (host, rest) := hostPart inside cs
      (c :: host, rest)

/-- The number that a text starts with, at most `65535`, and what follows; a port ends with the text
or before a backslash. -/
def portFrom (port : Nat) : List Char → Except Fault (Nat × List Char)
  | [] => .ok (port, [])
  | c :: cs =>
    if c.isDigit then
      let port := port * 10 + (c.toNat - '0'.toNat)
      if 65535 < port then .error .invalidPort else portFrom port cs
    else if c = '\\' then .ok (port, c :: cs)
    else .error .invalidPort

/-- The port that a text starts with, and what follows; none without digits and for the default of
the scheme. -/
def parsePort (scheme text : List Char) : Except Fault (Option Nat × List Char) := do
  let (port, rest) ← portFrom 0 text
  let named := (text.head?.any Char.isDigit) && defaultPort? scheme != some port
  .ok (if named then some port else none, rest)

/-- Reads credentials, host and port from the text up to the path, and what is left of it;
`followed` says that something follows it. -/
def parseAuthority (scheme text : List Char) (followed : Bool) :
    Except Fault (Authority × List Char) := do
  let special := isSpecial scheme
  let (username, password, rest) ←
    match splitLastAt text with
    | none => .ok ([], [], text)
    | some ([], rest) => if rest.isEmpty && followed then .error .emptyHost else .ok ([], [], rest)
    | some (credentials, rest) =>
      let (username, password) := parseCredentials credentials
      .ok (username, password, rest)
  let (hostText, portText) := hostPart false rest
  if special && hostText.isEmpty then .error .emptyHost
  else
    let host ← parseHost special hostText
    if hostText.isEmpty ∧ portText ≠ [] then .error .emptyHost
    else
      let (port, rest) ← parsePort scheme (portText.drop 1)
      if hostText.isEmpty ∧ !(username.isEmpty && password.isEmpty) then .error .emptyHost
      else .ok ({ username, password, host, port }, rest)

/-- Whether a segment stands for the segment itself. -/
def isSingleDot (segment : List Char) : Bool :=
  let small := segment.map Char.toLower
  small == ['.'] || small == ['%', '2', 'e']

/-- Whether a segment stands for the one before it. -/
def isDoubleDot (segment : List Char) : Bool :=
  let small := segment.map Char.toLower
  small == ['.', '.'] || small == ['.', '%', '2', 'e'] || small == ['%', '2', 'e', '.'] ||
    small == ['%', '2', 'e', '%', '2', 'e']

/-- A letter followed by a colon or a bar. -/
def isDriveLetter : List Char → Bool
  | [letter, mark] => letter.isAlpha && (mark == ':' || mark == '|')
  | _ => false

/-- A drive letter, alone or before a backslash. -/
def startsWithDrive (segment : List Char) : Bool :=
  isDriveLetter (segment.takeWhile (· != '\\'))

/-- Drops the last segment, which comes first in the list; a drive letter stays. -/
def shorten : List (List Char) → List (List Char)
  | [] => []
  | last :: segments => if startsWithDrive last then last :: segments else segments

/-- Puts the pieces of a path after the segments already there, last first, and resolves dots. A
drive letter at the start of a file path is written with a colon. -/
def resolveFrom (file : Bool) (done : List (List Char)) : List (List Char) → List (List Char)
  | [] => done
  | piece :: pieces =>
    let last := pieces.isEmpty
    if isDoubleDot piece then
      let rest := shorten done
      resolveFrom file (if last then [] :: rest else rest) pieces
    else if isSingleDot piece then resolveFrom file (if last then [] :: done else done) pieces
    else
      let piece :=
        if file && done.isEmpty && isDriveLetter piece then piece.take 1 ++ [':'] else piece
      resolveFrom file (encode inPath piece :: done) pieces

/-- The segments of a path that is written after its first slash. -/
def parseSegments (scheme text : List Char) : List (List Char) :=
  let special := isSpecial scheme
  let pieces := Text.splitWhere (fun c => c == '/' || (special && c == '\\')) text
  (resolveFrom (isFile scheme) [] pieces).reverse

/-- The path after an authority. A special scheme always has one. -/
def parsePath (scheme text : List Char) : Path :=
  match text with
  | [] => .rooted (if isSpecial scheme then [[]] else [])
  | c :: cs =>
    if endsAuthority (isSpecial scheme) c then .rooted (parseSegments scheme cs)
    else .rooted (parseSegments scheme (c :: cs))

/-- Query and fragment of a text that starts with the mark of one of them, or is empty. -/
def parseQuery (special : Bool) (text : List Char) : Option (List Char) × Option (List Char) :=
  match text with
  | '?' :: rest =>
    let query := some (encode (inQuery special) (rest.takeWhile (· != '#')))
    match rest.dropWhile (· != '#') with
    | _ :: fragment => (query, some (encode inFragment fragment))
    | [] => (query, none)
  | '#' :: fragment => (none, some (encode inFragment fragment))
  | _ => (none, none)

/-- Whether a character starts the query or the fragment. -/
def startsQuery (c : Char) : Bool :=
  c == '?' || c == '#'

/-- Reads what follows the slashes before an authority. -/
def parseAfterSlashes (scheme text : List Char) : Except Fault Url := do
  let special := isSpecial scheme
  let rest := text.dropWhile fun c => !endsAuthority special c
  let (authority, left) ←
    parseAuthority scheme (text.takeWhile fun c => !endsAuthority special c) (!rest.isEmpty)
  let path := parsePath scheme (left ++ rest.takeWhile fun c => !startsQuery c)
  let (query, fragment) := parseQuery special (rest.dropWhile fun c => !startsQuery c)
  .ok { scheme, authority := some authority, path, query, fragment }

/-- A text without the slash that it starts with. -/
def dropSlash : List Char → List Char
  | [] => []
  | c :: cs => if c == '/' || c == '\\' then cs else c :: cs

/-- The host of a file address after its two slashes, and the text whose pieces are the segments of
the path. A drive letter is no host, and the local machine is none; the path then keeps its first
slash. -/
def parseFileHost (text : List Char) : Except Fault (Host × List Char) := do
  let name := text.takeWhile fun c => !endsAuthority true c
  let rest := text.dropWhile fun c => !endsAuthority true c
  if name.isEmpty ∨ isDriveLetter name then .ok (.domain [], text)
  else
    match ← parseHost true name with
    | .domain domain =>
      if domain = "localhost".toList then .ok (.domain [], rest)
      else .ok (.domain domain, dropSlash rest)
    | host => .ok (host, dropSlash rest)

/-- The host of a file address and the text whose pieces are the segments of the path: a host only
after two slashes. -/
def splitFile (text : List Char) : Except Fault (Host × List Char) :=
  let isSlash (c : Char) : Bool := c == '/' || c == '\\'
  match text with
  | a :: b :: rest =>
    if isSlash a && isSlash b then parseFileHost rest else .ok (.domain [], dropSlash text)
  | _ => .ok (.domain [], dropSlash text)

/-- Reads a file address after its colon. There is no host beside a drive letter, and the path does
not start with empty segments. -/
def parseFile (scheme text : List Char) : Except Fault Url := do
  let (host, rest) ← splitFile text
  let segments := parseSegments scheme (rest.takeWhile fun c => !startsQuery c)
  let (query, fragment) := parseQuery true (rest.dropWhile fun c => !startsQuery c)
  let host := if segments.head?.any isDriveLetter then Host.domain [] else host
  let path := match segments.dropWhile List.isEmpty with
    | [] => Path.rooted [[]]
    | kept => Path.rooted kept
  let authority : Authority := { username := [], password := [], host, port := none }
  .ok { scheme, authority := some authority, path, query, fragment }

/-- Reads an address of another scheme that has no authority. -/
def parseWithoutAuthority (scheme text : List Char) : Url :=
  let pathText := text.takeWhile fun c => !startsQuery c
  let (query, fragment) := parseQuery false (text.dropWhile fun c => !startsQuery c)
  let path := match pathText with
    | '/' :: rest => Path.rooted (parseSegments scheme rest)
    | _ => Path.plain (encode isControl pathText)
  { scheme, authority := none, path, query, fragment }

/-- The address that a text denotes. -/
def parseChars (text : List Char) : Except Fault Url :=
  match splitScheme (normalizeInput text) with
  | none => .error .relativeWithoutBase
  | some (scheme, rest) =>
    if isFile scheme then parseFile scheme rest
    else if isSpecial scheme then
      parseAfterSlashes scheme (rest.dropWhile fun c => c == '/' || c == '\\')
    else
      match rest with
      | '/' :: '/' :: rest => parseAfterSlashes scheme rest
      | _ => .ok (parseWithoutAuthority scheme rest)

/-- The address that a string denotes. -/
def parse (text : String) : Except Fault Url :=
  parseChars text.toList

end Url

end Folio
