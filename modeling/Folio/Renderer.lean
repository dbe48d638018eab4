import Folio.Layout.Content
import Folio.Layout.FontSize
import Folio.Layout.Pagination
import Folio.Layout.Sink
import Folio.Translations

/-!
# Rendering

Every source page becomes a group of output pages: its lines are laid out for its width, divided
among pages of its size, and written to a sink in page order. Laying out a page comes before it is
opened, so that the program never panics while a page is open.
-/

set_option autoImplicit false

namespace Folio

namespace Sink

variable {σ κ : Type}

/-- Writes the lines of a source page to as many output pages as they need, and counts these. -/
def writeLines (sink : Sink σ κ) (setup : PageSetup) (lines : List Line) (header : Nat → Line)
    (state : σ) : Drawn σ Nat :=
  let pages := setup.paginate lines
  let run := sink.writePages setup header 0 state pages
  { run with result := run.result.map fun _ => pages.length }

end Sink

/-- How source pages are rendered. -/
structure Renderer where
  /-- The width of each character, in thousandths of the font size. -/
  charWidth : Char → UInt16
  fontSize : Float32
  includeOriginal : Bool := false
  labels : Labels := {}

namespace Renderer

/-- The margin on every side of an output page, in points. -/
def margin : Float32 := 48

/-- The distance between lines as a multiple of the font size. -/
def leadingFactor : Float32 := 1.4

/-- The size of a source page, where `sizes` begins with that of page 1. -/
def sizeOf (sizes : List (Option PageSize)) (page : PageNumber) : PageSize :=
  if page = 0 then .letter else ((sizes[page.toNat - 1]?).join).getD .letter

/-- The setup of the output pages of a size. -/
def setup (renderer : Renderer) (size : PageSize) : PageSetup where
  size := size
  fontSize := renderer.fontSize
  leading := renderer.fontSize * leadingFactor
  margin := margin

/-- The column of the output pages of a size. -/
def column (renderer : Renderer) (size : PageSize) : Column where
  charWidth := renderer.charWidth
  fontSize := renderer.fontSize
  maxWidth := size.width - margin * 2

variable {σ κ : Type}

/-- Lays out a source page: the lines of its output pages. -/
def layOut (renderer : Renderer) (translations : Translations) (sizes : List (Option PageSize))
    (page : Page) : Checked (List Line) :=
  (renderer.column (sizeOf sizes page.number)).contentLines renderer.labels renderer.includeOriginal
    page ((translations.get? page.number).getD "")

/-- Renders a source page, and counts its output pages. -/
def renderPage (renderer : Renderer) (sink : Sink σ κ) (translations : Translations)
    (sizes : List (Option PageSize)) (page : Page) (state : σ) : Drawn σ (Checked Nat) :=
  match renderer.layOut translations sizes page with
  | .error panic => ⟨.ok (.error panic), [], state⟩
  | .ok lines =>
    let setup := renderer.setup (sizeOf sizes page.number)
    let run := sink.writeLines setup lines (renderer.labels.header page.number) state
    let report := match run.result with
      | .ok count =>
        Log.debug s!"Page {page.number.toNat} rendered as {count} output page(s)"
      | .error _ => []
    ⟨run.result.map .ok, run.log ++ report, run.state⟩

/-- Renders pages that are in order, and counts the output pages. -/
def renderSorted (renderer : Renderer) (sink : Sink σ κ) (translations : Translations)
    (sizes : List (Option PageSize)) (state : σ) : List Page → Drawn σ (Checked Nat)
  | [] => ⟨.ok (.ok 0), [], state⟩
  | page :: pages =>
    match renderer.renderPage sink translations sizes page state with
    | ⟨.ok (.ok count), log, state⟩ =>
      let rest := renderer.renderSorted sink translations sizes state pages
      { rest with result := rest.result.map (·.map (count + ·)), log := log ++ rest.log }
    | stopped => stopped

/-- Renders pages in ascending order of their numbers, and counts the output pages. -/
def render (renderer : Renderer) (sink : Sink σ κ) (pages : List Page) (translations : Translations)
    (sizes : List (Option PageSize)) (state : σ) : Drawn σ (Checked Nat) :=
  renderer.renderSorted sink translations sizes state (Page.sort pages)

end Renderer

end Folio
