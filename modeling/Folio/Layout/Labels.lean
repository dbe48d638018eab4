import Folio.Error
import Folio.Json.Decode
import Folio.Text.Split

/-!
# Labels

The words that output documents hold beside the texts of their source. Headers name the page that
they stand on.
-/

set_option autoImplicit false

namespace Folio

/-- The words that are written into output documents. -/
structure Labels where
  originalHeader : String := "Original text"
  translatedHeader : String := "Translated text"
  /-- What stands in place of a translation that is blank. -/
  emptyPage : String := "No translatable text detected on this page."
  /-- The header of the first output page of a source page. -/
  pageHeader : String := "Page \x7bpage\x7d"
  /-- The header of the output pages that follow it. -/
  continuedHeader : String := "Page \x7bpage\x7d (continued)"
deriving DecidableEq, Repr

namespace Labels

/-- What stands for the number of the page in a header. -/
def placeholder : String := "\x7bpage\x7d"

/-- The header of an output page: the `segment`-th of a source page, counted from zero. -/
def header (labels : Labels) (page : PageNumber) (segment : Nat) : List Char :=
  let template := if segment = 0 then labels.pageHeader else labels.continuedHeader
  Text.replaceAll placeholder.toList (Nat.toDigits 10 page.toNat) template.toList

open Json

/-- The fields of labels in data; all of them are needed. -/
def record : Record Labels where
  name := "RenderLabels"
  initial := {}
  fields := [
    .needed "original_header" .string fun v l => { l with originalHeader := v },
    .needed "translated_header" .string fun v l => { l with translatedHeader := v },
    .needed "empty_page" .string fun v l => { l with emptyPage := v },
    .needed "page_header" .string fun v l => { l with pageHeader := v },
    .needed "continued_header" .string fun v l => { l with continuedHeader := v }]

def decoder : Decoder Labels := record.decoder

end Labels

end Folio
