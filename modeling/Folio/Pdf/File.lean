import Folio.Pdf.Deflate
import Folio.Pdf.Library
import Folio.Pdf.Reading

/-!
# PDF files

A library of its own: the bytes of a document are its objects one after the other, a table that says
where each begins, and a trailer that names the root. A file is read from its end: the place of the
table, the table, the trailer, the older tables that trailers lead back to, and then every object
that a table names. Files that keep their table or their objects in streams are not read.
-/

set_option autoImplicit false

namespace Folio.Pdf.File

/-! ### Writing -/

/-- What every file begins with. -/
def header : Bytes :=
  asciiBytes "%PDF-1.5\n".toList ++ [0x25, 0xE2, 0xE3, 0xCF, 0xD3, 0x0A]

/-- An object with its number. -/
def objectText (number : Nat) (object : Object) : Bytes :=
  asciiBytes (objectNumberText number ++ " obj\n".toList) ++ object.text ++
    asciiBytes "\nendobj\n".toList

/-- The objects, the first of which begins at `offset`, and where each begins. -/
def layOut (offset : Nat) : List (Nat × Object) → Bytes × List (Nat × Nat)
  | [] => ([], [])
  | (number, object) :: objects =>
    let text := objectText number object
    let rest := layOut (offset + text.length) objects
    (text ++ rest.1, (number, offset) :: rest.2)

/-- A number filled up with zeros. -/
def padded (width n : Nat) : List Char :=
  let digits := Nat.toDigits 10 n
  List.replicate (width - digits.length) '0' ++ digits

/-- The sections of the table, one for each object and one for the head of the free list. -/
def tableText (offsets : List (Nat × Nat)) : List Char :=
  "xref\n0 1\n0000000000 65535 f \n".toList ++ offsets.flatMap fun (number, offset) =>
    Nat.toDigits 10 (number % generationSize) ++ " 1\n".toList ++ padded 10 offset ++
      ' ' :: padded 5 (number / generationSize) ++ " n \n".toList

/-- The bytes of a document. -/
def ofDocument (doc : Document) : Bytes :=
  let (body, offsets) := layOut header.length doc.objects
  let root := match doc.root with
    | some root => [("Root", root)]
    | none => []
  let trailer : Object := .dictionary (root ++ [("Size", .integer (doc.lastNumber + 1))])
  header ++ body ++ asciiBytes (tableText offsets ++ "trailer\n".toList) ++ trailer.text ++
    asciiBytes ("\nstartxref\n".toList ++ Nat.toDigits 10 (header.length + body.length) ++
      "\n%%EOF".toList)

/-! ### Reading -/

/-- Why bytes are not a document. -/
inductive Fault where
  /-- The bytes do not begin as a file does. -/
  | header
  /-- There is no table where the file says that it begins. -/
  | start
  /-- An older table lies outside the file. -/
  | previous
  /-- The trailer cannot be read. -/
  | trailer
deriving DecidableEq, Repr

def Fault.message : Fault → String
  | .header => "Invalid file header"
  | .start => "Invalid cross-reference table (invalid start value)"
  | .previous => "Invalid cross-reference table (invalid start value in Prev field)"
  | .trailer => "Invalid file trailer"

/-- Whether bytes begin with the mark of a file and a line with its version. -/
def beginsAsFile (bytes : Bytes) : Bool :=
  match skipWord? "%PDF-" bytes with
  | some rest => rest.any isLineEnd
  | none => false

/-- Where a word occurs last, at or after `from`. -/
def lastOccurrence? (word bytes : Bytes) (start : Nat) : Option Nat :=
  let rec go (found : Option Nat) (at_ : Nat) : Bytes → Option Nat
    | [] => found
    | byte :: rest =>
      go (if word.isPrefixOf (byte :: rest) then some at_ else found) (at_ + 1) rest
  go none start (bytes.drop start)

/-- How many bytes at the end of a file are searched for the mark of its end. -/
def tailLength : Nat := 512

/-- Where the file says that its table begins. -/
def tableStart? (bytes : Bytes) : Option Nat := do
  let ending ← lastOccurrence? (asciiBytes "%%EOF".toList) bytes (bytes.length - tailLength)
  let mark ← lastOccurrence? (asciiBytes "startxref".toList) bytes (ending - 25)
  let rest ← skipWord? "startxref" (bytes.drop mark)
  let (start, _) ← readNatural (skipSpace rest)
  if start ≤ bytes.length then some start else none

/-- The entries of a section of the table, whose first object has the number `number`: the objects
in use and where each begins. -/
def readTableEntries : Nat → Nat → Bytes → Option (List (Nat × Nat) × Bytes)
  | 0, _, bytes => some ([], bytes)
  | count + 1, number, bytes => do
    let (offset, rest) ← readNatural (skipSpace bytes)
    let (_, rest) ← readNatural (skipSpace rest)
    let rest := skipSpace rest
    match skipWord? "n" rest, skipWord? "f" rest with
    | some rest, _ =>
      let (entries, rest) ← readTableEntries count (number + 1) rest
      some ((number, offset) :: entries, rest)
    | none, some rest => readTableEntries count (number + 1) rest
    | none, none => none

/-- The sections of the table, at most as many as `fuel` says. -/
def readTableSections : Nat → Bytes → List (Nat × Nat) × Bytes
  | 0, bytes => ([], bytes)
  | fuel + 1, bytes =>
    let section? := do
      let (first, rest) ← readNatural (skipSpace bytes)
      let (count, rest) ← readNatural (skipSpace rest)
      readTableEntries (min count bytes.length) first rest
    match section? with
    | none => ([], bytes)
    | some (entries, rest) =>
      let (more, rest) := readTableSections fuel rest
      (entries ++ more, rest)

/-- The table that begins at a place, and the trailer behind it, which must say how large the table
is. -/
def readTable (bytes : Bytes) (start : Nat) : Except Fault (List (Nat × Nat) × Dictionary) :=
  let rest := bytes.drop start
  match skipWord? "xref" rest with
  | none => .error .start
  | some rest =>
    let (offsets, rest) := readTableSections rest.length rest
    match (skipWord? "trailer" (skipSpace rest)).bind fun rest => readObject (skipSpace rest) with
    | some (.dictionary dict, _) =>
      match dict.lookup "Size" with
      | some (.integer _) => .ok (Sorted.ofList offsets, dict)
      | _ => .error .trailer
    | _ => .error .trailer

/-- Adds the older tables that a trailer leads back to; an entry that is there already stays. Places
in `seen` are not visited again, and `fuel` bounds how many are. -/
def addPrevious (bytes : Bytes) : Nat → List Int → List (Nat × Nat) → Dictionary →
    Except Fault (List (Nat × Nat))
  | 0, _, offsets, _ => .ok offsets
  | fuel + 1, seen, offsets, trailer =>
    match trailer.lookup "Prev" with
    | some (.integer place) =>
      if seen.contains place then .ok offsets
      else if place < 0 ∨ bytes.length < place then .error .previous
      else do
        let (older, trailer) ← readTable bytes place.toNat
        let offsets := older.foldl (fun all entry => Sorted.insertNew entry.1 entry.2 all) offsets
        addPrevious bytes fuel (place :: seen) offsets trailer
    | _ => .ok offsets

/-- The number of an object and what follows it. -/
def readObjectHead : Reader Nat := fun bytes => do
  let (number, rest) ← readObjectNumber (skipSpace bytes)
  let rest ← skipWord? "obj" (skipSpace rest)
  some (number, skipSpace rest)

/-- The length of a stream, where a reference leads to an object given by the table. -/
def lengthOf? (bytes : Bytes) (offsets : List (Nat × Nat)) : Object → Option Int
  | .integer n => some n
  | .reference number => do
    let (found, rest) ←
      readObjectHead (bytes.drop (← offsets.lookup (number % generationSize)))
    match ← readObject rest with
    | (.integer n, _) => if found = number then some n else none
    | _ => none
  | _ => none

/-- The content of a stream of some length, if it ends there. -/
def takeContent? (length : Nat) (content : Bytes) : Option Bytes := do
  let rest := content.drop length
  let _ ← skipWord? "endstream" ((skipLineEnd? rest).getD rest)
  some (content.take length)

/-- The object at an offset, with its number. A stream of unknown length is empty; one that does not
end where its length says counts as its dictionary, and one of negative length as nothing. -/
def readObjectAt (bytes : Bytes) (offsets : List (Nat × Nat)) (offset : Nat) :
    Option (Nat × Object) := do
  let (number, rest) ← readObjectHead (bytes.drop offset)
  let (object, rest) ← readObject rest
  match object, (skipWord? "stream" (skipSpace rest)).bind skipLineEnd? with
  | .dictionary dict, some content =>
    let entries := dict.filter fun entry => entry.1 ≠ "Length"
    match lengthOf? bytes offsets ((dict.lookup "Length").getD .null) with
    | none => some (number, .stream entries [])
    | some length =>
      if length < 0 then none
      else
        match takeContent? length.toNat content with
        | some content => some (number, .stream entries content)
        | none => some (number, object)
  | object, _ => some (number, object)

/-- The document that bytes hold; objects that cannot be read are left out. -/
def toDocument (bytes : Bytes) : Except Fault Document := do
  if !beginsAsFile bytes then throw .header
  let some start := tableStart? bytes | throw .start
  let (offsets, trailer) ← readTable bytes start
  let offsets ← addPrevious bytes bytes.length [] offsets trailer
  return {
    objects := Sorted.ofList (offsets.filterMap fun entry => readObjectAt bytes offsets entry.2)
    root := trailer.lookup "Root"
    lastNumber := (offsets.map Prod.fst).foldl max 0 }

/-- Files with tables, whose streams are stored as they are. -/
def library : Library where
  deflate := Deflate.store
  write := ofDocument
  read bytes := (toDocument bytes).mapError Fault.message

end Folio.Pdf.File
