import Folio.Proofs.Binary.Order
import Folio.Proofs.Pdf.Rendering
import Folio.Proofs.Pdf.Session
import Mathlib.Logic.Function.Iterate

/-!
# Text positions

The height of a line is kept twice: pagination moves a cursor to decide where a page ends, and the
operations of the page move the start of the line to where the ink goes. `PageSetup.Admitted` is the
loop over the lines of a text, with the cursor at which each was admitted; `Pdf.rows` reads
operations as a viewer does. Both take the same step for every line (`Pdf.rows_takes`), so that each
line stands where the cursor was (`cursor_is_baseline`), in the operations that were written and in
those that are found in the content stream of the page.
-/

set_option autoImplicit false

namespace Folio

/-! ## Admitting lines -/

namespace PageSetup

/-- The loop over the lines for a page: those that it takes, each with the cursor at which it was
admitted, and those that are left. A page that is obliged takes its first line in any case. -/
inductive Takes (setup : PageSetup) :
    Bool → Float32 → List Line → List (Float32 × Line) → List Line → Prop
  | done (obliged : Bool) (cursor : Float32) : Takes setup obliged cursor [] [] []
  | full {cursor : Float32} {line : Line} {lines : List Line} (h : setup.isFull cursor = true) :
      Takes setup false cursor (line :: lines) [] (line :: lines)
  | line {obliged : Bool} {cursor : Float32} {line : Line} {lines left : List Line}
      {taken : List (Float32 × Line)} (h : obliged = true ∨ setup.isFull cursor = false)
      (rest : Takes setup false (cursor - setup.leading) lines taken left) :
      Takes setup obliged cursor (line :: lines) ((cursor, line) :: taken) left

/-- The loop over the pages for lines, from the `segment`-th on, until no line is left. Pages that
continue another one are obliged to take a line. -/
inductive Admitted (setup : PageSetup) :
    Nat → List Line → List (List (Float32 × Line)) → Prop
  | last {segment : Nat} {lines : List Line} {page : List (Float32 × Line)}
      (h : setup.Takes (0 < segment) setup.firstCursor lines page []) :
      Admitted setup segment lines [page]
  | next {segment : Nat} {lines left : List Line} {page : List (Float32 × Line)}
      {pages : List (List (Float32 × Line))}
      (h : setup.Takes (0 < segment) setup.firstCursor lines page left) (hne : left ≠ [])
      (rest : Admitted setup (segment + 1) left pages) :
      Admitted setup segment lines (page :: pages)

section
variable {setup : PageSetup} {obliged : Bool} {cursor : Float32} {lines left : List Line}
  {taken : List (Float32 × Line)}

theorem exists_takes_fill (setup : PageSetup) (cursor : Float32) (lines : List Line) :
    ∃ taken, setup.Takes false cursor lines taken (setup.fill cursor lines).2 ∧
      taken.map Prod.snd = (setup.fill cursor lines).1 := by
  induction lines generalizing cursor with
  | nil => exact ⟨[], .done false cursor, rfl⟩
  | cons line lines ih =>
    unfold fill
    by_cases hfull : setup.isFull cursor = true
    · rw [if_pos hfull]
      exact ⟨[], .full hfull, rfl⟩
    · rw [if_neg hfull]
      obtain ⟨taken, htakes, hlines⟩ := ih (cursor - setup.leading)
      refine ⟨(cursor, line) :: taken, .line (.inr (Bool.eq_false_iff.2 hfull)) htakes, ?_⟩
      rw [List.map_cons, hlines]

theorem Admitted.of_takes {segment : Nat} {page : List (Float32 × Line)}
    {later : List (List Line)} (h : setup.Takes (0 < segment) setup.firstCursor lines page left)
    (hnil : left = [] → later = [])
    (hrest : left ≠ [] → ∃ pages, setup.Admitted (segment + 1) left pages ∧
      pages.map (·.map Prod.snd) = later) :
    ∃ pages, setup.Admitted segment lines pages ∧
      pages.map (·.map Prod.snd) = page.map Prod.snd :: later := by
  by_cases hleft : left = []
  · subst hleft
    exact ⟨[page], .last h, by rw [hnil rfl]; rfl⟩
  · obtain ⟨pages, hpages, rfl⟩ := hrest hleft
    exact ⟨page :: pages, .next h hleft hpages, rfl⟩

theorem exists_admitted_continuedPages (setup : PageSetup) (lines : List Line) (hne : lines ≠ [])
    (segment : Nat) :
    ∃ pages, setup.Admitted (segment + 1) lines pages ∧
      pages.map (·.map Prod.snd) = setup.continuedPages lines := by
  induction lines using continuedPages.induct setup generalizing segment with
  | case1 => exact absurd rfl hne
  | case2 line lines ih =>
    rw [continuedPages]
    obtain ⟨taken, htakes, hlines⟩ :=
      setup.exists_takes_fill (setup.firstCursor - setup.leading) lines
    rw [← hlines]
    have hpage : setup.Takes (0 < segment + 1) setup.firstCursor (line :: lines)
        ((setup.firstCursor, line) :: taken) _ := .line (.inl (by simp)) htakes
    refine Admitted.of_takes hpage (fun hnil => ?_) fun hleft => ih hleft (segment + 1)
    rw [hnil, continuedPages]

/-- The pages that are planned are those of the loop. -/
theorem exists_admitted (setup : PageSetup) (lines : List Line) :
    ∃ pages, setup.Admitted 0 lines pages ∧
      pages.map (·.map Prod.snd) = setup.paginate lines := by
  obtain ⟨taken, htakes, hlines⟩ := setup.exists_takes_fill setup.firstCursor lines
  rw [paginate, ← hlines]
  refine Admitted.of_takes htakes (fun hnil => ?_) fun hleft =>
    setup.exists_admitted_continuedPages _ hleft 0
  rw [hnil, continuedPages]

theorem Admitted.takes {segment : Nat} {pages : List (List (Float32 × Line))}
    (h : setup.Admitted segment lines pages) {i : Nat} {page : List (Float32 × Line)}
    (hpage : pages[i]? = some page) :
    ∃ lines left, setup.Takes (0 < segment + i) setup.firstCursor lines page left := by
  induction h generalizing i with
  | last h =>
    cases i with
    | zero => cases hpage; exact ⟨_, _, h⟩
    | succ i => cases hpage
  | next h hne rest ih =>
    cases i with
    | zero => cases hpage; exact ⟨_, _, h⟩
    | succ i =>
      obtain ⟨lines, left, htakes⟩ := ih hpage
      rw [Nat.add_right_comm] at htakes
      exact ⟨lines, left, htakes⟩

/-- The loop leaves no choice. -/
theorem Takes.deterministic (h : setup.Takes obliged cursor lines taken left)
    {taken' : List (Float32 × Line)} {left' : List Line}
    (h' : setup.Takes obliged cursor lines taken' left') : taken = taken' ∧ left = left' := by
  induction h generalizing taken' left' with
  | done =>
    cases h'
    exact ⟨rfl, rfl⟩
  | full hfull =>
    cases h' with
    | full => exact ⟨rfl, rfl⟩
    | line hroom => simp [hfull] at hroom
  | line hroom _ ih =>
    cases h' with
    | full hfull => simp [hfull] at hroom
    | line _ rest =>
      obtain ⟨rfl, rfl⟩ := ih rest
      exact ⟨rfl, rfl⟩

theorem Admitted.deterministic {segment : Nat} {pages pages' : List (List (Float32 × Line))}
    (h : setup.Admitted segment lines pages) (h' : setup.Admitted segment lines pages') :
    pages = pages' := by
  induction h generalizing pages' with
  | last h =>
    cases h' with
    | last h' => rw [(h.deterministic h').1]
    | next h' hne => exact absurd (h.deterministic h').2.symm hne
  | next h hne _ ih =>
    cases h' with
    | last h' => exact absurd (h.deterministic h').2 hne
    | next h' _ rest =>
      obtain ⟨rfl, rfl⟩ := h.deterministic h'
      rw [ih rest]

/-- The `i`-th line of a page is admitted `i` steps below the first, and unless the page was obliged
to take it, the page was not full. -/
theorem Takes.entry (h : setup.Takes obliged cursor lines taken left) {i : Nat} {height : Float32}
    {line : Line} (hi : taken[i]? = some (height, line)) :
    height = (· - setup.leading)^[i] cursor ∧
      (obliged = false ∨ 0 < i → setup.isFull height = false) := by
  induction h generalizing i with
  | done => cases hi
  | full => cases hi
  | line h rest ih =>
    cases i with
    | zero =>
      cases hi
      refine ⟨rfl, fun hfree => h.resolve_left ?_⟩
      simpa using hfree
    | succ i =>
      obtain ⟨hheight, hroom⟩ := ih hi
      exact ⟨hheight, fun _ => hroom (.inl rfl)⟩

end

end PageSetup

/-- The cursor of an open page at each of the lines that are written to it. -/
def Sink.cursors {σ κ : Type} (sink : Sink σ κ) (setup : PageSetup) (page : OpenPage κ)
    (state : σ) : List Line → List Float32
  | [] => []
  | line :: lines =>
    page.cursor ::
      match sink.writeLine setup line page state with
      | (.ok (), page, state) => sink.cursors setup page state lines
      | (.error _, _, _) => []

/-! ## Reading operations -/

namespace Pdf

/-- A line of text on a page: the height of its baseline, and the strings that are shown on it. -/
structure Row where
  baseline : Float32
  shown : List Bytes

/-- What a viewer keeps while it reads the operations of a text block. -/
structure TextState where
  leading : Float32 := 0
  /-- The height of the line that is being read, if it was moved from where a block begins. -/
  start : Option Float32 := none
  shown : List Bytes := []

namespace TextState

/-- The line as it was read so far. -/
def row (state : TextState) : Row := ⟨state.start.getD 0, state.shown⟩

/-- Reads an operation: the lines that it ends, and what is kept. -/
def step (state : TextState) (operation : Operation) : List Row × TextState :=
  match operation.operator, operation.operands.map Object.number?,
      operation.operands.map Object.bytes? with
  | "BT", [], _ => ([], { state with start := none, shown := [] })
  | "TL", [some leading], _ => ([], { state with leading })
  | "Td", [some _, some y], _ => ([], { state with start := some (state.start.elim y (· + y)) })
  | "Tj", _, [some bytes] => ([], { state with shown := state.shown ++ [bytes] })
  | "T*", [], _ =>
    ([state.row], { state with start := some (state.row.baseline - state.leading), shown := [] })
  | "ET", [], _ => (if state.shown.isEmpty then [] else [state.row], { state with shown := [] })
  | _, _, _ => ([], state)

/-- The lines that operations come to. -/
def rows (state : TextState) : List Operation → List Row
  | [] => []
  | operation :: operations => (state.step operation).1 ++ (state.step operation).2.rows operations

end TextState

/-- The lines of text that a viewer finds in the operations of a page. -/
def rows (operations : List Operation) : List Row := TextState.rows {} operations

/-- A viewer reads operations that came back as it reads those that were written. -/
theorem TextState.rows_of_comeBack {written found : List Operation}
    (h : OperationsComeBack written found) (state : TextState) :
    state.rows found = state.rows written := by
  induction h generalizing state with
  | nil => rfl
  | @cons a b _ _ hab _ ih =>
    rw [Operation.comesBackAs, Bool.and_eq_true, beq_iff_eq] at hab
    have hstep : state.step b = state.step a := by
      unfold step
      have hnumbers := Object.map_of_itemsComeBack (fun _ _ => Object.number?_of_comesBackAs) hab.2
      have hbytes := Object.map_of_itemsComeBack (fun _ _ => Object.bytes?_of_comesBackAs) hab.2
      rw [hab.1, hnumbers, hbytes]
    rw [rows, rows, hstep, ih]

/-- The operations for a line. -/
def lineOperations (font : Font) (line : Line) : List Operation :=
  if line.isEmpty then [.nextLine] else [.showText (font.encode line), .nextLine]

/-- The operations of a page with a header and lines. -/
def pageOperations (font : Font) (setup : PageSetup) (header : Line) (lines : List Line) :
    List Operation :=
  [.beginText, .selectFont "F1" setup.fontSize, .setLeading setup.leading,
    .moveTo setup.margin (setup.size.height - setup.margin), .showText (font.encode header),
    .nextLine] ++ lines.flatMap (lineOperations font) ++ [.endText]

/-- The lines of a content stream that draw a line of text: it is shown unless it is blank, and in
either case the text goes on to the next line. -/
def drawnLines (font : Font) (line : Line) : List String :=
  if line.isEmpty then ["T*"] else [showLine font line, "T*"]

/-- The content stream of a page with a header and lines. -/
def pageStream (font : Font) (setup : PageSetup) (header : Line) (lines : List Line) : Bytes :=
  asciiBytes ("\n".intercalate (setup.streamLines ++ [showLine font header, "T*"] ++
    lines.flatMap (drawnLines font) ++ ["ET"])).toList

/-- A line as it is found where the cursor was. -/
def rowOf (font : Font) (entry : Float32 × Line) : Row :=
  ⟨entry.1, if entry.2.isEmpty then [] else [font.encode entry.2]⟩

section
variable (font : Font) (setup : PageSetup)

theorem map_operation_strokesOf (line : Line) :
    (strokesOf line).map (Stroke.operation font) = lineOperations font line := by
  unfold strokesOf lineOperations
  split <;> rfl

theorem operations_sheet {header : Line} (h : header ≠ []) (lines : List Line) :
    (setup.sheet header lines).operations font = pageOperations font setup header lines := by
  have hheader : (headerStrokes header).map (Stroke.operation font) =
      [.showText (font.encode header), .nextLine] := by
    have hne : header.isEmpty = false := by simpa using h
    simp [headerStrokes, strokesOf, hne, Stroke.operation]
  have hlines : (lines.flatMap strokesOf).map (Stroke.operation font) =
      lines.flatMap (lineOperations font) := by
    simp only [List.map_flatMap, map_operation_strokesOf]
  rw [Sheet.operations, PageSetup.sheet, List.map_append, hheader, hlines, pageOperations]
  simp [Output.opening, Output.fontResource]

theorem stream_sheet {header : Line} (h : header ≠ []) (lines : List Line) :
    (setup.sheet header lines).stream font = pageStream font setup header lines := by
  have hstroke (line : Line) :
      (strokesOf line).map (Stroke.streamLine font) = drawnLines font line := by
    unfold strokesOf drawnLines
    split <;> rfl
  have hheader : (headerStrokes header).map (Stroke.streamLine font) =
      [showLine font header, "T*"] := by
    have hne : header.isEmpty = false := by simpa using h
    simp [headerStrokes, strokesOf, hne, Stroke.streamLine]
  have hlines : (lines.flatMap strokesOf).map (Stroke.streamLine font) =
      lines.flatMap (drawnLines font) := by
    simp only [List.map_flatMap, hstroke]
  rw [Sheet.stream, Sheet.streamLines, PageSetup.sheet, List.map_append, hheader, hlines,
    pageStream, List.append_assoc _ _ (lines.flatMap _)]

/-- The operations of a page are found again in its content stream. -/
theorem comeBack_of_isPage {doc : Document} {tree resources kid : Nat} {header : Line}
    (hheader : header ≠ []) {lines : List Line}
    (h : Output.IsPage font doc tree resources kid (setup.sheet header lines))
    (hlegible : setup.Legible) :
    OperationsComeBack (pageOperations font setup header lines)
      (readContent (doc.pageContent kid)) := by
  have hsheet : (setup.sheet header lines).setup.Legible := hlegible
  rw [h.pageContent_eq, ← operations_sheet font setup hheader]
  exact Sheet.readContent_stream font hsheet

/-- Reading what is drawn for a line takes the step that the cursor takes. -/
theorem rows_lineOperations (leading height : Float32) (line : Line)
    (operations : List Operation) :
    TextState.rows ⟨leading, some height, []⟩ (lineOperations font line ++ operations) =
      rowOf font (height, line) ::
        TextState.rows ⟨leading, some (height - leading), []⟩ operations := by
  unfold lineOperations rowOf
  split <;> rfl

end

/-- The loop over the lines of a page and a viewer of its operations go in step. -/
theorem rows_takes (font : Font) {setup : PageSetup} {obliged : Bool} {cursor : Float32}
    {lines left : List Line} {taken : List (Float32 × Line)}
    (h : setup.Takes obliged cursor lines taken left) :
    TextState.rows ⟨setup.leading, some cursor, []⟩
      ((taken.map Prod.snd).flatMap (lineOperations font) ++ [.endText]) =
        taken.map (rowOf font) := by
  induction h with
  | done => rfl
  | full => rfl
  | line _ _ ih =>
    rw [List.map_cons, List.flatMap_cons, List.append_assoc, rows_lineOperations, ih, List.map_cons]

theorem rows_pageOperations (font : Font) {setup : PageSetup} (header : Line) {obliged : Bool}
    {lines left : List Line} {page : List (Float32 × Line)}
    (h : setup.Takes obliged setup.firstCursor lines page left) :
    rows (pageOperations font setup header (page.map Prod.snd)) =
      ⟨setup.size.height - setup.margin, [font.encode header]⟩ :: page.map (rowOf font) := by
  rw [← rows_takes font h]
  rfl

/-! ## Pages of an output document -/

namespace Output

variable {font : Font} {output : Output} (setup : PageSetup) (header : Nat → Line)

/-- A page that is drawn has the cursor at every line where the loop had it. -/
theorem cursors_takes {setup : PageSetup} {obliged : Bool} {cursor : Float32}
    {lines left : List Line} {taken : List (Float32 × Line)}
    (h : setup.Takes obliged cursor lines taken left) (canvas : Canvas) (output : Output) :
    sink.cursors setup ⟨canvas, cursor⟩ output (taken.map Prod.snd) = taken.map Prod.fst := by
  induction h generalizing canvas with
  | done => rfl
  | full => rfl
  | @line obliged cursor line lines left taken _ _ ih =>
    have hline : ∃ canvas', sink.drawLine line canvas output = (.ok (), canvas', output) := by
      unfold Sink.drawLine
      split <;> exact ⟨_, rfl⟩
    obtain ⟨canvas', hdraw⟩ := hline
    simp only [List.map_cons, Sink.cursors, Sink.writeLine, hdraw, ih]

theorem cursors_openPage {setup : PageSetup} {obliged : Bool} {lines left : List Line}
    {page : List (Float32 × Line)} (h : setup.Takes obliged setup.firstCursor lines page left)
    (header : Line) (output : Output) :
    let opening := sink.openPage setup header output
    ∃ opened, opening.result = .ok opened ∧
      sink.cursors setup opened opening.state (page.map Prod.snd) = page.map Prod.fst := by
  have hfont : output.font = output.font := rfl
  simp only [openPage_sink hfont]
  exact ⟨_, rfl, cursors_takes h _ output⟩

/-- New pages come behind those that are there. -/
theorem kids_writePages (output : Output) (segment : Nat) (pages : List (List Line)) :
    output.kids <+: (sink.writePages setup header segment output pages).state.kids := by
  induction pages generalizing output segment with
  | nil => exact List.prefix_refl _
  | cons lines pages ih =>
    simp only [Sink.writePages, writePage_sink rfl]
    have hcommit (canvas : Canvas) : output.kids <+: (output.commit canvas).kids :=
      List.prefix_append _ _
    exact (hcommit _).trans (ih _ (segment + 1))

/-- The pages that are written are found behind the others, each with what is meant for it. -/
theorem Represents.writePages {sheets : List Sheet} (h : Represents font sheets output)
    (pages : List (List Line)) :
    let state := (sink.writePages setup header 0 output pages).state
    ∃ kids, state.document.pages = output.document.pages ++ kids ∧ kids.length = pages.length ∧
      ∀ (segment : Nat) (lines : List Line) (kid : Nat), pages[segment]? = some lines →
        kids[segment]? = some kid →
        IsPage font state.document state.tree state.resources kid
          (setup.sheet (header segment) lines) := by
  intro state
  obtain ⟨-, hstate⟩ := writePages_represents h setup header 0 pages
  obtain ⟨kids, hkids⟩ := kids_writePages setup header output 0 pages
  have hnew : List.Forall₂ (IsPage font state.document state.tree state.resources) kids
      (setup.sheets header 0 pages) := by
    have hdrop := List.forall₂_drop_append _ _ _ hstate.pages
    rwa [← h.pages.length_eq, ← hkids, List.drop_left] at hdrop
  have hlength : kids.length = pages.length := by
    rw [hnew.length_eq, PageSetup.sheets, List.length_map, List.length_zipIdx]
  refine ⟨kids, ?_, hlength, fun segment lines kid hlines hkid => ?_⟩
  · rw [hstate.pages_eq, h.pages_eq, hkids]
  · have hsheet : (setup.sheets header 0 pages)[segment]? =
        some (setup.sheet (header segment) lines) := by
      simp [PageSetup.sheets, List.getElem?_zipIdx, hlines]
    obtain ⟨hi, rfl⟩ := List.getElem?_eq_some_iff.1 hkid
    obtain ⟨hj, hsheet⟩ := List.getElem?_eq_some_iff.1 hsheet
    rw [← hsheet]
    exact hnew.get hi hj

end Output

end Pdf

/-! ## Heights -/

namespace PageSetup

variable {setup : PageSetup}

theorem isNaN_baseline (hheight : setup.size.height.isFinite) (hmargin : setup.margin.isFinite)
    (hleading : setup.leading.isFinite) (n : Nat) :
    ((· - setup.leading)^[n] (setup.size.height - setup.margin)).isNaN = false := by
  induction n with
  | zero => exact Binary32.isNaN_sub (Binary32.isNaN_of_isFinite hheight) hmargin
  | succ n ih =>
    rw [Function.iterate_succ_apply']
    exact Binary32.isNaN_sub ih hleading

/-- The cursor at which a line was admitted is the top of the text moved down by the leading once
for the header and once for every line before, and it was above the margin if it had to be. -/
theorem Takes.baseline (hheight : setup.size.height.isFinite) (hmargin : setup.margin.isFinite)
    (hleading : setup.leading.isFinite) {obliged : Bool} {lines left : List Line}
    {page : List (Float32 × Line)} (h : setup.Takes obliged setup.firstCursor lines page left)
    {i : Nat} {cursor : Float32} {line : Line} (hi : page[i]? = some (cursor, line)) :
    cursor = (· - setup.leading)^[i + 1] (setup.size.height - setup.margin) ∧
      (obliged = false ∨ 0 < i → setup.margin < cursor) := by
  obtain ⟨hcursor, hroom⟩ := h.entry hi
  have hbaseline : cursor = (· - setup.leading)^[i + 1] (setup.size.height - setup.margin) :=
    hcursor
  refine ⟨hbaseline, fun hfree => ?_⟩
  refine Binary32.lt_of_not_le (Binary32.isNaN_of_isFinite hmargin) ?_
    (of_decide_eq_false (hroom hfree))
  rw [hbaseline]
  exact isNaN_baseline hheight hmargin hleading (i + 1)

end PageSetup

open Pdf

/-- Whatever was done to an output document before, the lines of a text that are written to it stand
where the cursor was when they were admitted, page by page under their headers: so a viewer finds
them in the content stream of each page. Only the first line of a page that continues another one
may stand below the margin. -/
theorem cursor_is_baseline {library : Library} (hlossless : library.Lossless) (font : Font)
    (actions : List Action) {setup : PageSetup} (hheight : setup.size.height.isFinite)
    (hmargin : setup.margin.isFinite) (hleading : setup.leading.isFinite) {header : Nat → Line}
    (hheader : ∀ n, header n ≠ []) (lines : List Line) :
    let before := (Session.run library font actions).output
    let run := Output.sink.writeLines setup lines header before
    let doc := run.state.document
    ∃ pages kids, setup.Admitted 0 lines pages ∧ run.result = .ok pages.length ∧
      doc.pages = before.document.pages ++ kids ∧ kids.length = pages.length ∧
      ∀ (segment : Nat) (page : List (Float32 × Line)) (kid : Nat),
        pages[segment]? = some page → kids[segment]? = some kid →
        let operations := pageOperations font setup (header segment) (page.map Prod.snd)
        let rowsMeant := ⟨setup.size.height - setup.margin, [font.encode (header segment)]⟩ ::
          page.map (rowOf font)
        Output.IsPage font doc run.state.tree run.state.resources kid
          (setup.sheet (header segment) (page.map Prod.snd)) ∧
        doc.pageContent kid = pageStream font setup (header segment) (page.map Prod.snd) ∧
        rows operations = rowsMeant ∧
        (setup.Legible → OperationsComeBack operations (readContent (doc.pageContent kid)) ∧
          rows (readContent (doc.pageContent kid)) = rowsMeant) ∧
        (∀ output, let opening := Output.sink.openPage setup (header segment) output
          ∃ opened, opening.result = .ok opened ∧
            Output.sink.cursors setup opened opening.state (page.map Prod.snd) =
              page.map Prod.fst) ∧
        ∀ (i : Nat) (cursor : Float32) (line : Line), page[i]? = some (cursor, line) →
          cursor = (· - setup.leading)^[i + 1] (setup.size.height - setup.margin) ∧
            (segment = 0 ∨ 0 < i → setup.margin < cursor) := by
  intro before run doc
  obtain ⟨pages, hadmitted, hplan⟩ := setup.exists_admitted lines
  have hbefore := (Session.follows_run hlossless font actions).document
  obtain ⟨hresult, -⟩ := Output.writePages_represents hbefore setup header 0 (setup.paginate lines)
  obtain ⟨kids, hpages, hlength, hkids⟩ :=
    hbefore.writePages setup header (setup.paginate lines)
  have hcount : (setup.paginate lines).length = pages.length := by rw [← hplan, List.length_map]
  refine ⟨pages, kids, hadmitted, ?_, hpages, hlength.trans hcount, ?_⟩
  · show (Sink.writePages _ _ _ _ _ _).result.map _ = _
    rw [hresult, ← hcount]
    rfl
  intro segment page kid hpage hkid operations rowsMeant
  obtain ⟨_, _, htakes⟩ := hadmitted.takes hpage
  have hplanned : (setup.paginate lines)[segment]? = some (page.map Prod.snd) := by
    rw [← hplan, List.getElem?_map, hpage]
    rfl
  have hisPage := hkids segment _ kid hplanned hkid
  have hrows : rows operations = rowsMeant := rows_pageOperations font _ htakes
  have hstream : doc.pageContent kid =
      pageStream font setup (header segment) (page.map Prod.snd) :=
    hisPage.pageContent_eq.trans (stream_sheet font setup (hheader segment) _)
  refine ⟨hisPage, hstream, hrows, fun hlegible => ?_,
    Output.cursors_openPage htakes (header segment), ?_⟩
  · have hback := comeBack_of_isPage font setup (hheader segment) hisPage hlegible
    exact ⟨hback, (TextState.rows_of_comeBack hback {}).trans hrows⟩
  intro i cursor line hi
  obtain ⟨hcursor, hroom⟩ := htakes.baseline hheight hmargin hleading hi
  refine ⟨hcursor, fun hfree => hroom ?_⟩
  rcases hfree with rfl | hpos
  · exact .inl rfl
  · exact .inr hpos

/-- A new document and a small page, on which two of the lines fit, of which one is blank. -/
theorem cursor_is_baseline_three_lines :
    let setup : PageSetup := { size := ⟨200, 130⟩, fontSize := 10, leading := 14, margin := 48 }
    let header : Nat → Line := fun _ => ['h']
    let before := (Session.run File.library .helvetica []).output
    let run := Output.sink.writeLines setup [['a'], [], ['b']] header before
    let doc := run.state.document
    (File.library.Lossless ∧ setup.size.height.isFinite ∧ setup.margin.isFinite ∧
      setup.leading.isFinite ∧ (∀ n, header n ≠ []) ∧ setup.Legible) ∧
    run.result = .ok 2 ∧
    ∃ first second, doc.pages = before.document.pages ++ [first, second] ∧
      doc.pageContent first = asciiBytes
        "BT\n/F1 10 Tf\n14 TL\n48 82 Td\n<68> Tj\nT*\n<61> Tj\nT*\nT*\nET".toList ∧
      rows (readContent (doc.pageContent first)) =
        [⟨82, [[0x68]]⟩, ⟨68, [[0x61]]⟩, ⟨54, []⟩] ∧
      doc.pageContent second = asciiBytes
        "BT\n/F1 10 Tf\n14 TL\n48 82 Td\n<68> Tj\nT*\n<62> Tj\nT*\nET".toList ∧
      rows (readContent (doc.pageContent second)) = [⟨82, [[0x68]]⟩, ⟨68, [[0x62]]⟩] ∧
      (∃ opened, (Output.sink.openPage setup ['h'] before).result = .ok opened ∧
        Output.sink.cursors setup opened before [['a'], []] = [68, 54]) ∧
      (48 : Float32) < 68 ∧ (48 : Float32) < 54 := by
  intro setup header
  have hheight : setup.size.height.isFinite := by decide
  have hmargin : setup.margin.isFinite := by decide
  have hleading : setup.leading.isFinite := by decide
  have hheader : ∀ n, header n ≠ [] := fun _ => List.cons_ne_nil _ _
  have hlegible : setup.Legible := ⟨by decide +kernel, by decide +kernel, by decide +kernel,
    by decide +kernel⟩
  have htop : setup.size.height - setup.margin = 82 := by decide +kernel
  have hfirst : setup.firstCursor = 68 := by decide +kernel
  have hsecond : (68 : Float32) - setup.leading = 54 := by decide +kernel
  have hthird : (54 : Float32) - setup.leading = 40 := by decide +kernel
  -- the first page is full behind the blank line
  have hadmits : setup.Admitted 0 [['a'], [], ['b']]
      [[(68, ['a']), (54, [])], [(68, ['b'])]] := by
    refine .next ?_ (List.cons_ne_nil ['b'] []) (.last ?_)
    · rw [hfirst]
      refine .line (.inr (by decide +kernel)) ?_
      rw [hsecond]
      refine .line (.inr (by decide +kernel)) ?_
      rw [hthird]
      exact .full (by decide +kernel)
    · rw [hfirst]
      exact .line (.inl rfl) (.done _ _)
  obtain ⟨pages, kids, hadmitted, hresult, hpages, hlength, hkids⟩ :=
    cursor_is_baseline File.library_lossless .helvetica [] hheight hmargin hleading hheader
      [['a'], [], ['b']]
  obtain rfl := hadmitted.deterministic hadmits
  obtain ⟨first, second, rfl⟩ := List.length_eq_two.1 hlength
  obtain ⟨-, hstream, -, hread, hcursors, hroom⟩ := hkids 0 _ first rfl rfl
  obtain ⟨-, hstream', -, hread', -⟩ := hkids 1 _ second rfl rfl
  intro before run doc
  obtain ⟨opened, hopened, hat⟩ := hcursors before
  refine ⟨⟨File.library_lossless, hheight, hmargin, hleading, hheader, hlegible⟩, hresult, first,
    second, hpages, hstream.trans (by decide +kernel), ?_, hstream'.trans (by decide +kernel), ?_,
    ⟨opened, hopened, hat⟩, (hroom 0 68 ['a'] rfl).2 (.inl rfl), (hroom 1 54 [] rfl).2 (.inl rfl)⟩
  · rw [(hread hlegible).2, htop]
    rfl
  · rw [(hread' hlegible).2, htop]
    rfl

end Folio
