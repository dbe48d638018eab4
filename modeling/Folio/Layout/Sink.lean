import Folio.Error
import Folio.Layout.Column
import Folio.Layout.Setup
import Folio.Log

/-!
# Sinks

A sink takes output pages: a page is opened, text is drawn on it, and it is committed. Any of these
may fail. A page that was opened is committed once on every way: when it is closed, or when drawing
on it is given up.
-/

set_option autoImplicit false

namespace Folio

/-- What can be done to a destination of pages with state `σ` and to its open pages `κ`. -/
structure Sink (σ κ : Type) where
  /-- Opens a page with the cursor at the upper left margin. -/
  beginPage : PageSetup → σ → Except RenderError κ × σ
  /-- Draws text where the cursor stands. -/
  showText : Line → κ → σ → Except RenderError Unit × κ × σ
  /-- Moves the cursor to the start of the next line. -/
  newLine : κ → σ → Except RenderError Unit × κ × σ
  /-- Finishes a page and appends it to the output. -/
  commitPage : κ → σ → Except RenderError Unit × σ

/-- What a run over a sink came to. -/
structure Drawn (σ α : Type) where
  result : Except RenderError α
  log : Log
  state : σ

/-- A page that is open, with the height at which its next line is drawn. -/
structure OpenPage (κ : Type) where
  canvas : κ
  cursor : Float32

namespace Sink

variable {σ κ : Type}

/-- Draws a line and goes on to the next one; a blank line is only gone past. -/
def drawLine (sink : Sink σ κ) (line : Line) (canvas : κ) (state : σ) :
    Except RenderError Unit × κ × σ :=
  if line.isEmpty then sink.newLine canvas state
  else
    match sink.showText line canvas state with
    | (.error e, canvas, state) => (.error e, canvas, state)
    | (.ok (), canvas, state) => sink.newLine canvas state

/-- Commits a page on which drawing is given up; a failure of that is only reported. -/
def abandonPage (sink : Sink σ κ) (canvas : κ) (state : σ) : Log × σ :=
  match sink.commitPage canvas state with
  | (.ok (), state) => ([], state)
  | (.error e, state) =>
    (Log.warn ("Failed to commit page after an interrupted write: " ++ e.message), state)

/-- Opens a page and draws its header, unless that is blank. -/
def openPage (sink : Sink σ κ) (setup : PageSetup) (header : Line) (state : σ) :
    Drawn σ (OpenPage κ) :=
  match sink.beginPage setup state with
  | (.error e, state) => ⟨.error e, [], state⟩
  | (.ok canvas, state) =>
    if header.isEmpty then ⟨.ok ⟨canvas, setup.firstCursor⟩, [], state⟩
    else
      match sink.drawLine header canvas state with
      | (.ok (), canvas, state) => ⟨.ok ⟨canvas, setup.firstCursor⟩, [], state⟩
      | (.error e, canvas, state) =>
        let (log, state) := sink.abandonPage canvas state
        ⟨.error e, log, state⟩

/-- Draws a line on an open page and moves its cursor down, unless drawing fails. -/
def writeLine (sink : Sink σ κ) (setup : PageSetup) (line : Line) (page : OpenPage κ) (state : σ) :
    Except RenderError Unit × OpenPage κ × σ :=
  match sink.drawLine line page.canvas state with
  | (.ok (), canvas, state) => (.ok (), ⟨canvas, page.cursor - setup.leading⟩, state)
  | (.error e, canvas, state) => (.error e, { page with canvas }, state)

/-- Draws lines on an open page and closes it. -/
def finishPage (sink : Sink σ κ) (setup : PageSetup) (page : OpenPage κ) (state : σ) :
    List Line → Drawn σ Unit
  | [] =>
    let (result, state) := sink.commitPage page.canvas state
    ⟨result, [], state⟩
  | line :: lines =>
    match sink.writeLine setup line page state with
    | (.ok (), page, state) => sink.finishPage setup page state lines
    | (.error e, page, state) =>
      let (log, state) := sink.abandonPage page.canvas state
      ⟨.error e, log, state⟩

/-- Writes a whole page. -/
def writePage (sink : Sink σ κ) (setup : PageSetup) (header : Line) (lines : List Line)
    (state : σ) : Drawn σ Unit :=
  match sink.openPage setup header state with
  | ⟨.error e, log, state⟩ => ⟨.error e, log, state⟩
  | ⟨.ok page, log, state⟩ =>
    let rest := sink.finishPage setup page state lines
    { rest with log := log ++ rest.log }

/-- Writes pages one after the other, up to the first that fails; `header` gives the header of each
by its index, counted from `segment`. -/
def writePages (sink : Sink σ κ) (setup : PageSetup) (header : Nat → Line) (segment : Nat)
    (state : σ) : List (List Line) → Drawn σ Unit
  | [] => ⟨.ok (), [], state⟩
  | lines :: pages =>
    match sink.writePage setup (header segment) lines state with
    | ⟨.error e, log, state⟩ => ⟨.error e, log, state⟩
    | ⟨.ok (), log, state⟩ =>
      let rest := sink.writePages setup header (segment + 1) state pages
      { rest with log := log ++ rest.log }

end Sink

end Folio
