import Folio.Font
import Folio.Layout.Sink
import Folio.Pdf.Content
import Folio.Pdf.Library

/-!
# Output documents

A document that is written page by page in one font. Every committed page is a leaf of the page
tree, with what was drawn on it between the marks of a text block. The font is embedded anew for the
characters that were drawn when the document is turned into bytes.
-/

set_option autoImplicit false

namespace Folio.Pdf

/-- An output document. -/
structure Output where
  document : Document
  font : Font
  /-- The root of the page tree. -/
  tree : Nat
  /-- The resources of every page. -/
  resources : Nat
  /-- The dictionary of the font. -/
  fontNumber : Nat
  /-- The characters on committed pages, in ascending order. -/
  used : List Char := []
  /-- The characters that the font is embedded for. -/
  embedded : List Char := []
  /-- The committed pages, oldest first. -/
  kids : List Nat := []

/-- A page that is being drawn. -/
structure Canvas where
  size : PageSize
  used : List Char := []
  /-- What was drawn, the last operation first. -/
  drawn : List Operation

namespace Output

/-- The name of the font in the resources of every page. -/
def fontResource : String := "F1"

/-- The root of a page tree with the given pages. -/
def treeNode (kids : List Nat) : Object :=
  .dictionary [
    ("Type", .name "Pages"),
    ("Kids", .array (kids.map .reference)),
    ("Count", .integer kids.length)]

/-- The catalog of a document. -/
def catalogNode (tree : Nat) : Object :=
  .dictionary [("Type", .name "Catalog"), ("Pages", .reference tree)]

/-- The resources of every page. -/
def resourcesNode (fontNumber : Nat) : Object :=
  .dictionary [("Font", .dictionary [(fontResource, .reference fontNumber)])]

/-- A page of some size. -/
def pageNode (tree resources content : Nat) (size : PageSize) : Object :=
  .dictionary [
    ("Type", .name "Page"),
    ("Parent", .reference tree),
    ("Contents", .reference content),
    ("Resources", .reference resources),
    ("MediaBox", .array [.integer 0, .integer 0, .real size.width, .real size.height])]

/-- A document without pages. -/
def new (font : Font) : Output :=
  let (tree, doc) := Document.empty.reserve
  let (dictionary, doc) := font.embed [] doc
  let (fontNumber, doc) := doc.add (.dictionary dictionary)
  let (resources, doc) := doc.add (resourcesNode fontNumber)
  let (catalog, doc) := doc.add (catalogNode tree)
  let doc := { doc with root := some (.reference catalog) }.set tree (treeNode [])
  { document := doc, font, tree, resources, fontNumber }

/-- The number of committed pages. -/
def pageCount (output : Output) : Nat :=
  output.kids.length

/-- What a page begins with. -/
def opening (setup : PageSetup) : List Operation := [
  .beginText,
  .selectFont fontResource setup.fontSize,
  .setLeading setup.leading,
  .moveTo setup.margin (setup.size.height - setup.margin)]

/-- A page without lines. -/
def blankCanvas (setup : PageSetup) : Canvas where
  size := setup.size
  drawn := (opening setup).reverse

/-- The operations of a page. -/
def operations (canvas : Canvas) : List Operation :=
  (Operation.endText :: canvas.drawn).reverse

/-- Appends a page. -/
def commit (output : Output) (canvas : Canvas) : Output :=
  let (content, doc) := output.document.add (.stream [] (contentText (operations canvas)))
  let (page, doc) := doc.add (pageNode output.tree output.resources content canvas.size)
  let kids := output.kids ++ [page]
  { output with
    document := doc.set output.tree (treeNode kids)
    used := Sorted.addAll canvas.used output.used
    kids }

/-- Draws a text. -/
def showText (font : Font) (line : Line) (canvas : Canvas) : Canvas :=
  { canvas with
    used := Sorted.addAll line canvas.used
    drawn := .showText (font.encode line) :: canvas.drawn }

/-- Goes on to the next line. -/
def newLine (canvas : Canvas) : Canvas :=
  { canvas with drawn := .nextLine :: canvas.drawn }

/-- Output documents as a sink of pages; nothing that is done to them fails. -/
def sink : Sink Output Canvas where
  beginPage setup output := (.ok (blankCanvas setup), output)
  showText line canvas output := (.ok (), showText output.font line canvas, output)
  newLine canvas output := (.ok (), newLine canvas, output)
  commitPage canvas output := (.ok (), output.commit canvas)

/-- Embeds the font anew if characters were drawn since it was embedded, and drops the objects that
it needed before. -/
def embedFont (output : Output) : Output × Log :=
  if output.used = output.embedded then (output, [])
  else
    let (dictionary, doc) := output.font.embed output.used output.document
    let doc := doc.set output.fontNumber (.dictionary dictionary)
    let pruned := doc.prune
    let dropped := doc.objects.length - pruned.objects.length
    ({ output with document := pruned, embedded := output.used },
      Log.debug (s!"Embedded {output.font.baseFont} for {output.used.length} characters, " ++
        s!"dropped {dropped} stale objects"))

/-- What turning a document into bytes comes to. -/
structure Serialized where
  bytes : Bytes
  output : Output
  log : Log

/-- The bytes of the document with its font embedded for what was drawn and its streams compressed.
The table of the file counts as an object, so that it takes a number. -/
def serialize (library : Library) (output : Output) : Serialized :=
  let (output, log) := output.embedFont
  let doc := (output.document.compress library.deflate).reserve.2
  { bytes := library.write doc, output := { output with document := doc }, log }

end Output

end Folio.Pdf
