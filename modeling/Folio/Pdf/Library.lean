import Folio.Pdf.Document

/-!
# Document libraries

A document becomes bytes and is read from bytes by a library. What a library writes down for a
document, what it reads and how it compresses data are its own affair; streams are compressed where
that saves enough.
-/

set_option autoImplicit false

namespace Folio.Pdf

/-- What is done to documents outside of this program. -/
structure Library where
  /-- Data in a compressed form. -/
  deflate : Bytes → Bytes
  /-- The bytes of a document. -/
  write : Document → Bytes
  /-- The document that bytes hold, or why they hold none. -/
  read : Bytes → Except String Document

/-- How much shorter the compressed form of a stream must be at least. -/
def filterCost : Nat := 19

/-- A stream that names no filter in its compressed form, if that is shorter. -/
def Object.compress (deflate : Bytes → Bytes) : Object → Object
  | .stream entries content =>
    let compressed := deflate content
    if (entries.lookup "Filter").isNone && compressed.length + filterCost < content.length then
      .stream (Dictionary.set entries "Filter" (.name "FlateDecode")) compressed
    else .stream entries content
  | object => object

/-- A document with its streams compressed. -/
def Document.compress (doc : Document) (deflate : Bytes → Bytes) : Document :=
  { doc with objects := doc.objects.map fun (number, object) => (number, object.compress deflate) }

end Folio.Pdf
