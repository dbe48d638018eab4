/-!
# Page setups

The size of a page and how text is set on it. Text begins at the upper left margin, and every line
moves the cursor down by the leading.
-/

set_option autoImplicit false

namespace Folio

/-- The size of a page, in points. -/
structure PageSize where
  width : Float32
  height : Float32
deriving DecidableEq

/-- The size of US Letter paper. -/
def PageSize.letter : PageSize := ⟨612, 792⟩

/-- The geometry and the text state of a page that is about to be opened. -/
structure PageSetup where
  size : PageSize
  fontSize : Float32
  /-- The distance between lines. -/
  leading : Float32
  margin : Float32
deriving DecidableEq

/-- Where the cursor stands when the header of a page is drawn. -/
def PageSetup.firstCursor (setup : PageSetup) : Float32 :=
  setup.size.height - setup.margin - setup.leading

/-- Whether the cursor has reached the bottom margin, so that a page takes no more lines. -/
def PageSetup.isFull (setup : PageSetup) (cursor : Float32) : Bool :=
  cursor ≤ setup.margin

end Folio
