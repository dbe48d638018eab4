import Folio.Error
import Folio.Text.Blank

/-!
# Pages

A page is a number and the text extracted from it. A list of pages is put in ascending order before
anything is sent, and a list with a zero or a repeated number is refused.
-/

set_option autoImplicit false

namespace Folio

/-- The text of one page of the source document. -/
structure Page where
  number : PageNumber
  text : String
deriving DecidableEq, Repr

namespace Page

/-- Whether the page has any text that is not blank. -/
def hasContent (page : Page) : Bool :=
  Text.hasContent page.text

/-- What a page costs beside its characters. -/
def overhead : Nat := 32

/-- What sending the page costs: its characters and a fixed overhead. -/
def cost (page : Page) : Nat :=
  page.text.toList.length + overhead

/-- Puts a page into a sorted list, before the pages of the same number. -/
def insertSorted (page : Page) : List Page → List Page
  | [] => [page]
  | next :: rest =>
    if page.number ≤ next.number then page :: next :: rest
    else next :: insertSorted page rest

/-- The pages in ascending order of their numbers; pages of one number keep their order. -/
def sort (pages : List Page) : List Page :=
  pages.foldr insertSorted []

/-- What is wrong with the numbers of sorted pages that follow a page numbered `previous`. -/
def findFault : Option PageNumber → List Page → Option TranslationError
  | _, [] => none
  | previous, page :: rest =>
    if page.number = 0 then some (.invalidInput "Page numbers start at 1")
    else if previous = some page.number then
      some (.invalidInput s!"Page {page.number.toNat} appears more than once")
    else findFault (some page.number) rest

/-- The pages in ascending order, if their numbers are positive and each occurs once. -/
def sortDistinct (pages : List Page) : Except TranslationError (List Page) :=
  match findFault none (sort pages) with
  | some error => .error error
  | none => .ok (sort pages)

end Page

end Folio
