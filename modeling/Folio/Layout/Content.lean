import Folio.Layout.Column
import Folio.Layout.Labels
import Folio.Page

/-!
# The content of an output page

The lines that stand for a source page: its text, if that is wanted, and its translation, each under
a header of its own.
-/

set_option autoImplicit false

namespace Folio.Column

/-- The lines of the original text under their header, and a blank line behind them. -/
def originalLines (column : Column) (labels : Labels) (page : Page) : Checked (List Line) := do
  return labels.originalHeader.toList :: (← column.wrapText page.text.toList) ++ [[]]

/-- The lines of a translation under their header; a blank one is replaced by a label. -/
def translatedLines (column : Column) (labels : Labels) (translation : String) :
    Checked (List Line) := do
  let lines ← if Text.hasContent translation then column.wrapText translation.toList
    else pure [labels.emptyPage.toList]
  return labels.translatedHeader.toList :: lines

/-- The lines that stand for a source page. -/
def contentLines (column : Column) (labels : Labels) (includeOriginal : Bool) (page : Page)
    (translation : String) : Checked (List Line) := do
  let original ← if includeOriginal && page.hasContent then column.originalLines labels page
    else pure []
  return original ++ (← column.translatedLines labels translation)

end Folio.Column
