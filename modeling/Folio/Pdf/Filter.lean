import Folio.Pdf.Deflate
import Folio.Pdf.Object
import Folio.Pdf.Text

/-!
# Filters of streams

The content of a stream may be kept in another form, for which its dictionary names filters: the
content goes through them one after the other before it is used.
-/

set_option autoImplicit false

namespace Folio.Pdf

/-- A form in which content is kept. -/
inductive Filter where
  /-- Compressed. -/
  | flate
  /-- Groups of four bytes as five characters. -/
  | ascii85
deriving DecidableEq, Repr

namespace Filter

def ofName? (name : String) : Option Filter :=
  [("FlateDecode", flate), ("ASCII85Decode", ascii85)].lookup name

/-- The bytes of a group of digits in base 85, one less than there are digits; up to four missing
digits count as the greatest. -/
def groupBytes (digits : List Nat) : Bytes :=
  let filled := digits ++ List.replicate (5 - digits.length) 84
  let n := filled.foldl (fun n digit => n * 85 + digit) 0
  ([24, 16, 8, 0].map fun shift => UInt8.ofNat (n >>> shift)).take (digits.length - 1)

/-- Reads groups of five characters; `group` holds the digits of the group that has begun. Space
does not count, a `z` stands for four zeros, and the text ends at a tilde. -/
def decodeAscii85 (group : List Nat) : Bytes → Option Bytes
  | [] => some (groupBytes group)
  | byte :: rest =>
    if byte = 0x7E then some (groupBytes group)
    else if byte = 0x7A then
      if group.isEmpty then (decodeAscii85 [] rest).map ([0, 0, 0, 0] ++ ·) else none
    else if 0x21 ≤ byte ∧ byte ≤ 0x75 then
      let group := group ++ [byte.toNat - 0x21]
      if group.length = 5 then (decodeAscii85 [] rest).map (groupBytes group ++ ·)
      else decodeAscii85 group rest
    else if byte = 0x20 ∨ 0x09 ≤ byte ∧ byte ≤ 0x0D then decodeAscii85 group rest
    else none

/-- The content that a filter gives back. -/
def decode? (filter : Filter) (content : Bytes) : Option Bytes :=
  match filter with
  | flate => some (Deflate.decompress content)
  | ascii85 => decodeAscii85 [] content

end Filter

/-- The names of the filters of a stream, if it has any. -/
def filterNames? (entries : Dictionary) : Option (List String) := do
  match ← entries.lookup "Filter" with
  | .name name => some [name]
  | .array items => items.mapM Object.name?
  | _ => none

/-- The content of a stream behind its filters, if all of them are known. Images are left as they
are. -/
def unfiltered? (entries : Dictionary) (content : Bytes) : Option Bytes := do
  let names ← filterNames? entries
  if (entries.lookup "Subtype").bind Object.name? = some "Image" then none
  else names.foldlM (fun content name => (Filter.ofName? name).bind (·.decode? content)) content

/-- The content of a stream, behind its filters if it names any. -/
def plainContent? (entries : Dictionary) (content : Bytes) : Option Bytes :=
  if (filterNames? entries).isNone then some content else unfiltered? entries content

end Folio.Pdf
