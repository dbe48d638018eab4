import Folio.Layout.Column
import Folio.Layout.Setup

/-!
# Pagination

The lines of a source page are divided among as many output pages as they need. A page takes lines
until the cursor reaches the bottom margin; the first may be left with its header alone, and every
further page takes at least one line.
-/

set_option autoImplicit false

namespace Folio.PageSetup

/-- The lines that a page takes when its cursor stands at a height, and the lines that are left. -/
def fill (setup : PageSetup) (cursor : Float32) : List Line → List Line × List Line
  | [] => ([], [])
  | line :: lines =>
    if setup.isFull cursor then ([], line :: lines)
    else
      let (taken, left) := setup.fill (cursor - setup.leading) lines
      (line :: taken, left)

theorem length_fill_snd_le (setup : PageSetup) (cursor : Float32) (lines : List Line) :
    (setup.fill cursor lines).2.length ≤ lines.length := by
  induction lines generalizing cursor with
  | nil => simp [fill]
  | cons line lines ih =>
    unfold fill
    split
    · simp
    · exact Nat.le_succ_of_le (ih _)

/-- The lines of the pages that continue a source page. -/
def continuedPages (setup : PageSetup) : List Line → List (List Line)
  | [] => []
  | line :: lines =>
    (line :: (setup.fill (setup.firstCursor - setup.leading) lines).1) ::
      setup.continuedPages (setup.fill (setup.firstCursor - setup.leading) lines).2
termination_by lines => lines.length
decreasing_by exact Nat.lt_succ_of_le (setup.length_fill_snd_le _ lines)

/-- The lines of each output page of a source page. -/
def paginate (setup : PageSetup) (lines : List Line) : List (List Line) :=
  (setup.fill setup.firstCursor lines).1 ::
    setup.continuedPages (setup.fill setup.firstCursor lines).2

end Folio.PageSetup
