import Folio.Proofs.Pdf.Represents

/-!
# Rendering into an output document

Nothing that is done to an output document fails, so that rendering appends the output pages that
are meant for each source page, drawn as they were meant, and counts them
(`renderSorted_represents`), unless the program panics before it opens a page.
-/

set_option autoImplicit false

namespace Folio

open Pdf

namespace Pdf.Output

variable {font : Font} {output : Output}

/-! ## One page -/

theorem drawLine_sink (hfont : output.font = font) (setup : PageSetup) (strokes : List Stroke)
    (line : Line) :
    sink.drawLine line (canvasOf font ⟨setup, strokes⟩) output =
      (.ok (), canvasOf font ⟨setup, strokes ++ strokesOf line⟩, output) := by
  subst hfont
  unfold Sink.drawLine strokesOf
  by_cases hline : line.isEmpty
  · rw [if_pos hline, if_pos hline, canvasOf_concat]
    rfl
  · rw [if_neg hline, if_neg hline, ← List.singleton_append, ← List.append_assoc, canvasOf_concat,
      canvasOf_concat]
    rfl

theorem openPage_sink (hfont : output.font = font) (setup : PageSetup) (header : Line) :
    sink.openPage setup header output =
      ⟨.ok ⟨canvasOf font ⟨setup, headerStrokes header⟩, setup.firstCursor⟩, [], output⟩ := by
  have hbegin : sink.beginPage setup output = (.ok (canvasOf font ⟨setup, []⟩), output) := rfl
  unfold Sink.openPage headerStrokes
  rw [hbegin]
  by_cases hheader : header.isEmpty
  · simp only [if_pos hheader]
  · simp only [if_neg hheader, drawLine_sink hfont, List.nil_append]

theorem finishPage_sink (hfont : output.font = font) (setup : PageSetup) (strokes : List Stroke)
    (cursor : Float32) (lines : List Line) :
    sink.finishPage setup ⟨canvasOf font ⟨setup, strokes⟩, cursor⟩ output lines =
      ⟨.ok (), [],
        output.commit (canvasOf font ⟨setup, strokes ++ lines.flatMap strokesOf⟩)⟩ := by
  induction lines generalizing strokes cursor with
  | nil =>
    rw [List.flatMap_nil, List.append_nil]
    rfl
  | cons line lines ih =>
    simp only [Sink.finishPage, Sink.writeLine, drawLine_sink hfont]
    rw [ih, List.flatMap_cons, List.append_assoc]

theorem writePage_sink (hfont : output.font = font) (setup : PageSetup) (header : Line)
    (lines : List Line) :
    sink.writePage setup header lines output =
      ⟨.ok (), [], output.commit (canvasOf font (setup.sheet header lines))⟩ := by
  unfold Sink.writePage
  rw [openPage_sink hfont]
  simp only [finishPage_sink hfont]
  rfl

/-! ## All pages -/

theorem writePages_represents {sheets : List Sheet} (h : Represents font sheets output)
    (setup : PageSetup) (header : Nat → Line) (segment : Nat) (pages : List (List Line)) :
    let run := sink.writePages setup header segment output pages
    run.result = .ok () ∧
      Represents font (sheets ++ setup.sheets header segment pages) run.state := by
  induction pages generalizing sheets output segment with
  | nil =>
    refine ⟨rfl, ?_⟩
    rw [PageSetup.sheets, List.zipIdx_nil, List.map_nil, List.append_nil]
    exact h
  | cons lines pages ih =>
    obtain ⟨hresult, hstate⟩ := ih (h.commit (setup.sheet (header segment) lines)) (segment + 1)
    simp only [Sink.writePages, writePage_sink h.inFont]
    refine ⟨hresult, ?_⟩
    rw [PageSetup.sheets_cons, ← List.singleton_append, ← List.append_assoc]
    exact hstate

end Pdf.Output

namespace Renderer

open Pdf.Output

variable (renderer : Renderer) (translations : Translations) (sizes : List (Option PageSize))
  {font : Font} {sheets : List Sheet} {output : Output}

theorem renderPage_represents (h : Represents font sheets output) (page : Page) :
    let run := renderer.renderPage sink translations sizes page output
    run.result = .ok ((renderer.sheetsOf translations sizes page).map List.length) ∧
      Represents font (sheets ++ renderer.sheetsUntilPanic translations sizes [page]) run.state := by
  cases hlines : renderer.layOut translations sizes page with
  | error panic =>
    have hsheets := sheetsOf_of_panic hlines
    rw [sheetsUntilPanic_of_panic hsheets, hsheets, List.append_nil]
    simp only [renderPage, hlines]
    exact ⟨rfl, h⟩
  | ok lines =>
    obtain ⟨hresult, hstate⟩ := writePages_represents h
      (renderer.setup (sizeOf sizes page.number)) (renderer.labels.header page.number) 0
      ((renderer.setup (sizeOf sizes page.number)).paginate lines)
    have hsheets := sheetsOf_of_lines hlines
    rw [sheetsUntilPanic_of_ok hsheets, hsheets, sheetsUntilPanic, List.append_nil]
    simp only [renderPage, hlines, Sink.writeLines] at hresult ⊢
    refine ⟨?_, hstate⟩
    rw [hresult]
    simp [PageSetup.sheets, Except.map]

/-- Rendering appends the pages that are meant for the source pages, and counts them, or panics
behind those of the pages before. -/
theorem renderSorted_represents (h : Represents font sheets output) (pages : List Page) :
    let run := renderer.renderSorted sink translations sizes output pages
    run.result = .ok (renderer.sheetCount translations sizes pages) ∧
      Represents font (sheets ++ renderer.sheetsUntilPanic translations sizes pages) run.state := by
  induction pages generalizing sheets output with
  | nil => exact ⟨rfl, by rwa [sheetsUntilPanic, List.append_nil]⟩
  | cons page pages ih =>
    obtain ⟨hresult, hstate⟩ := renderer.renderPage_represents translations sizes h page
    rcases hrun : renderer.renderPage sink translations sizes page output with
      ⟨result, log, state⟩
    rw [hrun] at hresult hstate
    obtain rfl : result = _ := hresult
    cases hsheets : renderer.sheetsOf translations sizes page with
    | error panic =>
      rw [sheetsUntilPanic_of_panic hsheets] at hstate ⊢
      rw [hsheets] at hrun
      have hstopped : renderer.renderSorted sink translations sizes output (page :: pages) =
          ⟨.ok (.error panic), log, state⟩ := by
        rw [renderSorted, hrun]
        rfl
      rw [sheetCount_of_panic hsheets, hstopped]
      exact ⟨rfl, hstate⟩
    | ok added =>
      rw [sheetsUntilPanic_of_ok hsheets, sheetsUntilPanic, List.append_nil] at hstate
      rw [sheetsUntilPanic_of_ok hsheets, sheetCount_of_ok hsheets, ← List.append_assoc]
      rw [hsheets] at hrun
      obtain ⟨hresults, hstates⟩ := ih hstate
      simp only [renderSorted, hrun, Except.map] at hresults ⊢
      rw [hresults]
      exact ⟨rfl, hstates⟩

end Renderer

end Folio
