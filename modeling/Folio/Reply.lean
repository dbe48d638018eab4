import Folio.Chunk
import Folio.Json.Printer
import Folio.Json.Reader
import Folio.Text.Split

/-!
# Replies

The assistant is asked for a JSON object of translations under page numbers. A reply counts with or
without a fence of backticks around it, but it must answer every page of the chunk.
-/

set_option autoImplicit false

namespace Folio.Reply

/-- The marks that open and close a fence. -/
def fence : List Char := ['`', '`', '`']

/-- Whether a fence closes the text before it, which is given from its end: the fence starts a line
or follows the JSON value. A fence quoted inside a string does neither. -/
def closes (before : List Char) : Bool :=
  match before with
  | '\n' :: _ => true
  | _ =>
    match before.dropWhile Text.isBlank with
    | [] => true
    | last :: _ => last == '\x7d' || last == ']'

/-- Walks over a text from its end, with `skip` characters still to pass over, to the last fence
that closes what is before it; fences do not overlap. The result is that text, from its end. -/
def beforeFence : Nat → List Char → Option (List Char)
  | _, [] => none
  | skip + 1, _ :: cs => beforeFence skip cs
  | 0, c :: cs =>
    if fence.isPrefixOf (c :: cs) then
      if closes (cs.drop 2) then some (cs.drop 2) else beforeFence 2 cs
    else beforeFence 0 cs

/-- What follows the line of an opening fence; a fence without a line of its own only loses its
backticks. -/
def afterOpening (text : List Char) : List Char :=
  match text.dropWhile (· != '\n') with
  | _ :: body => body
  | [] => text.dropWhile (· == '`')

/-- The content of a reply without blanks around it and without the fence; blank content counts as
an empty object. -/
def clean (content : List Char) : List Char :=
  let text := Text.trim content
  if text.isEmpty then ['\x7b', '\x7d']
  else if fence.isPrefixOf text then
    let body := afterOpening text
    match beforeFence 0 body.reverse with
    | some before => Text.trim before.reverse
    | none => Text.trim body
  else text

/-- The content of a reply, cleaned. -/
def cleaned (content : String) : String :=
  String.ofList (clean content.toList)

/-- The number of 32 bits that decimal digits denote; one plus sign may come first. -/
def number? (text : List Char) : Option PageNumber :=
  let digits := match text with
    | '+' :: digits => digits
    | digits => digits
  match readDigits 0 0 digits with
  | (_, 0, _) => none
  | (n, _, []) => if n < UInt32.size then some (UInt32.ofNat n) else none
  | _ => none

/-- The page that a key of the reply answers. -/
def page? (key : String) : Option PageNumber :=
  number? (Text.trim key.toList)

/-- The text of an answered page. -/
def text : Json.Value → String
  | .null => ""
  | .string text => text
  | other => other.text

/-- The values by the page that they answer; a later key replaces an earlier one. -/
def answers (members : Json.Members) : List (PageNumber × Json.Value) :=
  Sorted.ofList (members.filterMap fun (key, value) => (page? key).map (·, value))

/-- The object that the content of a reply denotes. -/
def object (content : String) : Except TranslationError Json.Members :=
  match Json.parse (cleaned content) with
  | .error e => .error (.protocol s!"Assistant content was not valid JSON: {e.message}")
  | .ok (.object members) => .ok members
  | .ok _ => .error (.protocol "Assistant content was not a JSON object")

/-- Numbers in ascending order. -/
def sortNumbers (numbers : List PageNumber) : List PageNumber :=
  numbers.foldr insertNumber []
where
  insertNumber (n : PageNumber) : List PageNumber → List PageNumber
    | [] => [n]
    | m :: rest => if n ≤ m then n :: m :: rest else m :: insertNumber n rest

/-- The numbers of the pages of a chunk that are not answered, ascending. -/
def missing (answers : List (PageNumber × Json.Value)) (chunk : Chunk) : List PageNumber :=
  sortNumbers (chunk.numbers.filter fun n => (answers.lookup n).isNone)

/-- The translations of exactly the pages of a chunk. -/
def translations (content : String) (chunk : Chunk) :
    Except TranslationError (List (PageNumber × String)) := do
  let answers := answers (← object content)
  if (missing answers chunk).isEmpty then
    .ok (Sorted.ofList (chunk.map fun page =>
      (page.number, ((answers.lookup page.number).map text).getD "")))
  else .error (.missingPages (missing answers chunk))

/-- What is reported about the keys of a reply that are not used. -/
def log (content : String) (chunk : Chunk) : Log :=
  match object content with
  | .error _ => []
  | .ok members =>
    let foreign := members.filter fun (key, _) => (page? key).isNone
    let answers := answers members
    let extra := (answers.map Prod.fst).filter fun n => !chunk.numbers.contains n
    foreign.flatMap (fun (key, _) =>
        Log.debug s!"Ignoring non-numeric key '{key}' in translation response") ++
      if (missing answers chunk).isEmpty ∧ extra ≠ [] then
        Log.debug s!"Ignoring translations for pages outside the chunk: {bracketed extra}"
      else []

end Folio.Reply
