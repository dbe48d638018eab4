import Folio.Font.ByteEncoding
import Folio.Layout.Setup
import Folio.Log
import Folio.Page
import Folio.Pdf.Document
import Folio.Pdf.Filter
import Folio.Pdf.Reading

/-!
# Source documents

What a job takes from a document: the size of every page, found in the nearest box on the way up the
page tree, and the text of every page, read from the strings that its content stream shows.
-/

set_option autoImplicit false

namespace Folio

namespace Pdf.Document

/-! ### Page sizes -/

/-- How many dictionaries are searched for the box of a page. -/
def boxDepth : Nat := 10

/-- The items of an array, given directly or by a reference. -/
def arrayAt? (doc : Document) : Object → Option (List Object)
  | .array items => some items
  | .reference number => (doc.get number).toOption.bind Object.array?
  | _ => none

/-- The box that a dictionary gives itself, if it is an array with four numbers. -/
def ownBox? (doc : Document) (dict : Dictionary) : Option (List Float32) := do
  let items ← doc.arrayAt? (← dict.lookup "MediaBox")
  let numbers := items.filterMap Object.number?
  if numbers.length = 4 then some numbers else none

/-- The box of an object: its own, or that of the nearest parent that has one, among at most `depth`
dictionaries. -/
def box? (doc : Document) : Nat → Object → Option (List Float32)
  | 0, _ => none
  | depth + 1, object => do
    let dict ← object.dictionary?
    match doc.ownBox? dict with
    | some box => some box
    | none =>
      let parent ← (← dict.lookup "Parent").reference?
      box? doc depth (← (doc.get parent).toOption)

/-- The size of a box, if both its sides are positive. -/
def sizeOfBox? : List Float32 → Option PageSize
  | [left, bottom, right, top] =>
    let size : PageSize := ⟨(right - left).abs, (top - bottom).abs⟩
    if 0 < size.width ∧ 0 < size.height then some size else none
  | _ => none

/-- The size of every page, in page order. -/
def pageSizes (doc : Document) : List (Option PageSize) :=
  doc.pages.map fun page =>
    ((doc.get page).toOption.bind (doc.box? boxDepth)).bind sizeOfBox?

/-! ### Resources -/

/-- The resources that a page and its parents refer to, from the page up. A parent that was met
before is a fault. -/
def resourcesFrom (doc : Document) : Nat → List Nat → Dictionary → Except Fault (List Nat)
  | 0, _, _ => .error .cycle
  | fuel + 1, seen, dict => do
    let own := ((dict.lookup "Resources").bind Object.reference?).toList
    match (dict.lookup "Parent").bind Object.reference? with
    | none => return own
    | some parent =>
      if seen.contains parent then throw .cycle
      return own ++ (← resourcesFrom doc fuel (parent :: seen) (← doc.dictionary parent))

/-- A dictionary, given directly or by a reference. -/
def dictionaryAt? (doc : Document) : Object → Option Dictionary
  | .dictionary entries => some entries
  | .reference number => doc.dictionary? number
  | _ => none

/-- The fonts of resources. -/
def fontsOf (doc : Document) (resources : Dictionary) : List (String × Dictionary) :=
  (((resources.lookup "Font").bind doc.dictionaryAt?).getD []).filterMap fun (name, font) =>
    (doc.dictionaryAt? font).map fun font => (name, font)

/-- The fonts of a page, by name; the fonts that are nearest to the page count. -/
def pageFonts (doc : Document) (page : Nat) : Except Fault (List (String × Dictionary)) := do
  let some dict := doc.dictionary? page | return []
  let direct := ((dict.lookup "Resources").bind Object.dictionary?).toList
  let referred ← doc.resourcesFrom (doc.objects.length + 1) [] dict
  let fonts := (direct ++ referred.filterMap doc.dictionary?).flatMap doc.fontsOf
  return fonts.foldl (fun fonts (name, font) => Sorted.insertNew name font fonts) []

/-! ### Text -/

/-- How the strings of a font are read. -/
inductive Encoding where
  /-- One byte for each character. -/
  | bytes (set : ByteEncoding)
  /-- UTF-16. -/
  | utf16
  /-- Two bytes for each glyph, with a map that leads back to characters. -/
  | glyphs (mapping : UnicodeMap.Mapping)
  /-- A way that is not known. -/
  | unknown

/-- The map of a font from glyphs to characters. -/
def unicodeMap (doc : Document) (font : Dictionary) : Except Fault UnicodeMap.Mapping := do
  let some value := font.lookup "ToUnicode" | throw .missingKey
  match ← doc.follow value with
  | .stream entries content =>
    match plainContent? entries content with
    | some content => (UnicodeMap.read content).mapError .unicodeMap
    | none => throw .wrongType
  | _ => throw .wrongType

/-- How the strings of a font are read. -/
def encodingOf (doc : Document) (font : Dictionary) : Except Fault Encoding :=
  if (font.lookup "Type").bind Object.name? ≠ some "Font" then .error .wrongType
  else
    match (font.lookup "Encoding").bind Object.name? with
    | none => .ok (.bytes .standard)
    | some "Identity-H" => (doc.unicodeMap font).map .glyphs
    | some "UniGB-UCS2-H" | some "UniGB-UTF16-H" => .ok .utf16
    | some name => .ok (((ByteEncoding.ofName? name).map .bytes).getD .unknown)

/-- The text of a string and what is reported about it. -/
def decodeString (encoding : Encoding) (bytes : Bytes) : Except Fault (List Char × Log) :=
  match encoding with
  | .bytes set => .ok (bytes.filterMap set.char?, Log.debug "Decoding text with OneByteEncoding")
  | .utf16 => .ok (Text.Utf16.decodeMarked bytes, [])
  | .glyphs mapping => .ok (UnicodeMap.decode mapping bytes, [])
  | .unknown => .error .undecodable

/-- What a large negative shift between strings is at most. -/
def wordGap : Int := -100

mutual

/-- The text that an operand shows: arrays are followed by a space, and large shifts count as
one. -/
def operandText (encoding : Encoding) : Object → Except Fault (List Char × Log)
  | .string bytes => decodeString encoding bytes
  | .hexString bytes => decodeString encoding bytes
  | .array items => do
    let (text, log) ← operandsText encoding items
    return (text ++ [' '], log)
  | .integer shift => return (if shift < wordGap then [' '] else [], [])
  | _ => return ([], [])

/-- The text that operands show. -/
def operandsText (encoding : Encoding) : List Object → Except Fault (List Char × Log)
  | [] => return ([], [])
  | operand :: operands => do
    let (text, log) ← operandText encoding operand
    let (more, moreLog) ← operandsText encoding operands
    return (text ++ more, log ++ moreLog)

end

/-- The font named by the operation that selects one. -/
def selectedFont (operation : Operation) : Except Fault String :=
  match operation.operands with
  | [] => .error (.malformed "missing font operand")
  | .name name :: _ => .ok name
  | _ => .error .wrongType

/-- The text that operations show, behind a text whose last character is `last?`, in the selected
encoding. A block of text ends with a line end. -/
def operationsText (encodings : List (String × Encoding)) :
    Option Encoding → Option Char → List Operation → Except Fault (List Char × Log)
  | _, _, [] => .ok ([], [])
  | encoding?, last?, operation :: operations =>
    match operation.operator, encoding? with
    | "Tf", _ => do
      operationsText encodings (encodings.lookup (← selectedFont operation)) last? operations
    | "Tj", some encoding | "TJ", some encoding => do
      let (text, log) ← operandsText encoding operation.operands
      let (more, moreLog) ←
        operationsText encodings encoding? (text.getLast?.or last?) operations
      return (text ++ more, log ++ moreLog)
    | "ET", _ => do
      let ending := if last? = some '\n' then [] else ['\n']
      let (more, log) ← operationsText encodings encoding? (some '\n') operations
      return (ending ++ more, log)
    | _, _ => operationsText encodings encoding? last? operations

/-- The numbers of the content streams of a page, where `fuel` bounds references to references. -/
def contentStreams (doc : Document) : Nat → Object → List Nat
  | fuel, .reference number =>
    match fuel, doc.objects.lookup number with
    | _, none => [number]
    | _, some (.stream _ _) => [number]
    | 0, some _ => []
    | fuel + 1, some object => contentStreams doc fuel object
  | _, .array items => items.filterMap Object.reference?
  | _, _ => []

/-- The content of a page: its streams one after the other. -/
def pageContent (doc : Document) (page : Nat) : Bytes :=
  match (doc.dictionary? page).bind (·.lookup "Contents") with
  | none => []
  | some contents =>
    (doc.contentStreams referenceLimit contents).flatMap fun number =>
      match doc.get number with
      | .ok (.stream entries content) => (unfiltered? entries content).getD content
      | _ => []

/-- The text of a page, untrimmed. -/
def pageText (doc : Document) (page : Nat) : Except Fault (List Char × Log) := do
  let fonts ← doc.pageFonts page
  let encodings ← fonts.mapM fun (name, font) => do return (name, ← doc.encodingOf font)
  operationsText encodings none none (readContent (doc.pageContent page))

/-- What is taken for the page with a number: its trimmed text, or none if there is a fault in
it. -/
def extractPage (doc : Document) (number : PageNumber) (page : Nat) : Page × Log :=
  match doc.pageText page with
  | .ok (text, log) => (⟨number, String.ofList (Text.trim text)⟩, log)
  | .error fault =>
    (⟨number, ""⟩,
      Log.warn s!"Could not extract text from page {number.toNat}: {fault.message}")

/-- The pages of a document with their texts, numbered from 1. -/
def extractPages (doc : Document) : List Page × Log :=
  let pages := doc.pages.mapIdx fun i page => doc.extractPage (UInt32.ofNat (i + 1)) page
  (pages.map Prod.fst, pages.flatMap Prod.snd)

end Pdf.Document

end Folio
