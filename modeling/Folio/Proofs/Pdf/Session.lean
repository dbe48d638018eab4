import Folio.Proofs.Pdf.Represents

/-!
# Writing an output document

A `Session` takes the calls of a sink in any order, with any number of canvases open at once and the
document turned into bytes at any time. Beside it runs a `Ledger`, which only notes what was drawn
on which page and which pages were committed. Whatever the calls, the document is well formed and
has the committed pages of the ledger (`document_wellFormed`), as long as the library compresses
without loss.
-/

set_option autoImplicit false

namespace Folio.Pdf

/-! ## Calls -/

/-- A call to an output document. Open canvases are named by their position, oldest first; a call
that names none does nothing. -/
inductive Action where
  | beginPage (setup : PageSetup)
  | draw (canvas : Nat) (stroke : Stroke)
  | commitPage (canvas : Nat)
  /-- Gives a canvas up without a commit. -/
  | drop (canvas : Nat)
  | serialize

/-- A document and the canvases that are open. -/
structure Session where
  output : Output
  canvases : List Canvas := []

/-- The call that draws a stroke. -/
def drawStroke (stroke : Stroke) (canvas : Canvas) (output : Output) :
    Except RenderError Unit × Canvas × Output :=
  match stroke with
  | .text line => Output.sink.showText line canvas output
  | .lineBreak => Output.sink.newLine canvas output

namespace Session

def step (library : Library) (session : Session) : Action → Session
  | .beginPage setup =>
    match Output.sink.beginPage setup session.output with
    | (.ok canvas, output) => ⟨output, session.canvases ++ [canvas]⟩
    | (.error _, output) => { session with output }
  | .draw i stroke =>
    match session.canvases[i]? with
    | some canvas =>
      let (_, canvas, output) := drawStroke stroke canvas session.output
      ⟨output, session.canvases.set i canvas⟩
    | none => session
  | .commitPage i =>
    match session.canvases[i]? with
    | some canvas =>
      let (_, output) := Output.sink.commitPage canvas session.output
      ⟨output, session.canvases.eraseIdx i⟩
    | none => session
  | .drop i => { session with canvases := session.canvases.eraseIdx i }
  | .serialize => { session with output := (session.output.serialize library).output }

/-- The session that calls lead to, from a new document. -/
def run (library : Library) (font : Font) (actions : List Action) : Session :=
  actions.foldl (step library) { output := Output.new font }

end Session

/-- The pages that are open and those that were committed, oldest first. -/
structure Ledger where
  opened : List Sheet := []
  committed : List Sheet := []

namespace Ledger

def step (ledger : Ledger) : Action → Ledger
  | .beginPage setup => { ledger with opened := ledger.opened ++ [⟨setup, []⟩] }
  | .draw i stroke =>
    match ledger.opened[i]? with
    | some sheet =>
      { ledger with opened := ledger.opened.set i ⟨sheet.setup, sheet.strokes ++ [stroke]⟩ }
    | none => ledger
  | .commitPage i =>
    match ledger.opened[i]? with
    | some sheet => ⟨ledger.opened.eraseIdx i, ledger.committed ++ [sheet]⟩
    | none => ledger
  | .drop i => { ledger with opened := ledger.opened.eraseIdx i }
  | .serialize => ledger

def run (actions : List Action) : Ledger :=
  actions.foldl step {}

end Ledger

/-! ## Following the ledger -/

/-- The document represents the committed pages, and what was drawn on open pages is on their
canvases. -/
structure Session.Follows (font : Font) (session : Session) (ledger : Ledger) : Prop where
  document : Output.Represents font ledger.committed session.output
  canvases : session.canvases = ledger.opened.map (Output.canvasOf font)

section
variable {font : Font} {session : Session} {ledger : Ledger}

theorem drawStroke_eq (stroke : Stroke) (canvas : Canvas) (output : Output) :
    drawStroke stroke canvas output = (.ok (), Output.draw output.font stroke canvas, output) := by
  cases stroke <;> rfl

theorem Session.Follows.getElem? (h : session.Follows font ledger) (i : Nat) :
    session.canvases[i]? = ledger.opened[i]?.map (Output.canvasOf font) := by
  rw [h.canvases, List.getElem?_map]

variable {library : Library} (hlossless : library.Lossless)

include hlossless

/-- One call keeps session and ledger together. -/
theorem Session.Follows.step (h : session.Follows font ledger) (action : Action) :
    (session.step library action).Follows font (ledger.step action) := by
  cases action with
  | beginPage setup =>
    refine ⟨h.document, ?_⟩
    show session.canvases ++ [Output.canvasOf font ⟨setup, []⟩] =
      List.map (Output.canvasOf font) (ledger.opened ++ [⟨setup, []⟩])
    rw [h.canvases, List.map_append]
    rfl
  | draw i stroke =>
    have hi := h.getElem? i
    cases hsheet : ledger.opened[i]? with
    | none => simpa only [Session.step, Ledger.step, hi, hsheet, Option.map_none] using h
    | some sheet =>
      simp only [Session.step, Ledger.step, hi, hsheet, Option.map_some, drawStroke_eq,
        h.document.inFont]
      refine ⟨h.document, ?_⟩
      show session.canvases.set i (Output.draw font stroke (Output.canvasOf font sheet)) = _
      rw [List.map_set, Output.canvasOf_concat, h.canvases]
  | commitPage i =>
    have hi := h.getElem? i
    cases hsheet : ledger.opened[i]? with
    | none => simpa only [Session.step, Ledger.step, hi, hsheet, Option.map_none] using h
    | some sheet =>
      simp only [Session.step, Ledger.step, hi, hsheet, Option.map_some]
      refine ⟨h.document.commit sheet, ?_⟩
      show session.canvases.eraseIdx i = _
      rw [h.canvases, List.eraseIdx_map]
  | drop i =>
    refine ⟨h.document, ?_⟩
    show session.canvases.eraseIdx i = _
    rw [h.canvases]
    exact List.eraseIdx_map ..
  | serialize => exact ⟨(h.document.serialize hlossless).1, h.canvases⟩

/-- Calls one after the other keep session and ledger together. -/
theorem Session.Follows.foldl (h : session.Follows font ledger) (actions : List Action) :
    (actions.foldl (Session.step library) session).Follows font
      (actions.foldl Ledger.step ledger) := by
  induction actions generalizing session ledger with
  | nil => exact h
  | cons action actions ih => exact ih (h.step hlossless action)

theorem Session.follows_run (font : Font) (actions : List Action) :
    (Session.run library font actions).Follows font (Ledger.run actions) :=
  Session.Follows.foldl hlossless ⟨Output.represents_new font, rfl⟩ actions

end

/-! ## Well-formed documents -/

namespace Output

/-- An output document is well formed and its pages are the given sheets, in their order. -/
structure WellFormed (font : Font) (sheets : List Sheet) (output : Output) : Prop where
  /-- The trailer names a catalog, whose page tree has the pages as its only children. -/
  tree : ∃ catalog, output.document.IsFlat catalog output.tree output.kids
  count : output.pageCount = sheets.length
  /-- Each page has the size of its sheet and draws it. -/
  pages : List.Forall₂ (IsPage font output.document output.tree output.resources) output.kids sheets
  /-- A reader finds the operations of each sheet in the content of its page. -/
  contents : List.Forall₂ (fun kid sheet =>
      output.document.pageContent kid = sheet.stream font ∧
      (sheet.setup.Legible → OperationsComeBack (sheet.operations font)
        (readContent (output.document.pageContent kid))))
    output.kids sheets
  /-- The resources of the pages name the font and nothing else. -/
  resources : output.document.valueAt? output.resources "Font" =
    some (.dictionary [("F1", .reference output.fontNumber)])
  font : output.document.valueAt? output.fontNumber "Type" = some (.name "Font") ∧
    output.document.valueAt? output.fontNumber "BaseFont" = some (.name font.baseFont)
  /-- The pages that a reader finds. -/
  found : output.document.pages = output.kids
  /-- The sizes that a reader finds. -/
  sizes : output.document.pageSizes.length = sheets.length ∧
    ∀ (i : Nat) (sheet : Sheet), sheets[i]? = some sheet →
      0 < sheet.setup.size.width → 0 < sheet.setup.size.height →
      output.document.pageSizes[i]? = some (some sheet.setup.size)
  /-- No object is left over. Until there is a page, the trailer does not lead to the resources. -/
  reached : ∀ n object, output.document.objects.lookup n = some object →
    output.document.Reaches output.document.trailer n ∨
      (sheets = [] ∧ output.document.Reaches [output.resources] n)

variable {font : Font} {sheets : List Sheet} {output : Output}

theorem Represents.wellFormed (h : Represents font sheets output) :
    WellFormed font sheets output := by
  obtain ⟨catalog, hflat⟩ := h.isFlat
  have hlength : output.kids.length = sheets.length := h.pages.length_eq
  constructor
  case tree => exact ⟨catalog, hflat⟩
  case count => exact hlength
  case pages => exact h.pages
  case contents =>
    refine h.pages.imp fun kid sheet hpage => ⟨hpage.pageContent_eq, fun hlegible => ?_⟩
    rw [hpage.pageContent_eq]
    exact Sheet.readContent_stream font hlegible
  case resources => exact Document.valueAt?_eq_some_iff.2 ⟨_, h.resources, rfl⟩
  case font => exact h.embedded.baseFont
  case found => exact hflat.pages_eq
  case sizes =>
    refine ⟨by rw [Document.pageSizes, hflat.pages_eq, List.length_map, hlength], ?_⟩
    intro i sheet hsheet hwidth hheight
    obtain ⟨hi, rfl⟩ := List.getElem?_eq_some_iff.1 hsheet
    have hkid : i < output.kids.length := hlength ▸ hi
    have hpage := h.pages.get hkid hi
    rw [Document.pageSizes, hflat.pages_eq, List.getElem?_map, List.getElem?_eq_getElem hkid]
    exact congrArg some (Document.pageSize_of_box hpage.box hwidth hheight)
  case reached =>
    intro n object hn
    have hanchored := h.anchored n object hn
    by_cases hsheets : sheets = []
    · refine hanchored.cons.symm.imp_right fun hn => ⟨hsheets, hn⟩
    · have hkids : output.kids ≠ [] := by
        intro hnil
        rw [hnil, List.length_nil] at hlength
        exact hsheets (List.length_eq_zero_iff.1 hlength.symm)
      exact .inl (h.reaches_trailer hkids hanchored)

end Output

/-! ## All calls -/

/-- Whatever is called in whatever order, the document is well formed with the pages that were
committed; and turned into bytes, it covers every character that was drawn on them. -/
theorem document_wellFormed {library : Library} (hlossless : library.Lossless) (font : Font)
    (actions : List Action) :
    let sheets := (Ledger.run actions).committed
    let output := (Session.run library font actions).output
    let saved := (output.serialize library).output
    Output.WellFormed font sheets output ∧ Output.WellFormed font sheets saved ∧
      ∀ sheet ∈ sheets, ∀ c ∈ drawnText sheet.strokes,
        font.Covers saved.document saved.fontNumber c := by
  intro sheets output saved
  have h : Output.Represents font sheets output :=
    (Session.follows_run hlossless font actions).document
  obtain ⟨hsaved, hembedded⟩ := h.serialize hlossless
  refine ⟨h.wellFormed, hsaved.wellFormed, ?_⟩
  intro sheet hsheet c hc
  have hused : c ∈ saved.embedded := by
    rw [hembedded]
    exact (hsaved.used c).2 ⟨sheet, hsheet, hc⟩
  exact hsaved.embedded.covers hused

/-- Two pages that are open at once, committed in the other order, with the document turned into
bytes in between and again at the end. -/
theorem document_wellFormed_two_canvases :
    let setup : PageSetup := { size := ⟨200, 130⟩, fontSize := 10, leading := 14.5, margin := 48 }
    let actions : List Action := [.beginPage setup, .beginPage setup, .draw 0 (.text ['a']),
      .draw 1 (.text ['b']), .commitPage 1, .serialize, .draw 0 .lineBreak, .commitPage 0,
      .serialize]
    let output := (Session.run File.library .helvetica actions).output
    let doc := output.document
    let saved := (output.serialize File.library).output
    File.library.Lossless ∧ setup.Legible ∧
      ∃ first second content, doc.pages = [first, second] ∧
        doc.valueAt? output.tree "Kids" = some (.array [.reference first, .reference second]) ∧
        doc.valueAt? output.tree "Count" = some (.integer 2) ∧
        doc.valueAt? second "Parent" = some (.reference output.tree) ∧
        doc.valueAt? second "Resources" = some (.reference output.resources) ∧
        doc.valueAt? second "Contents" = some (.reference content) ∧
        doc.plainAt? content =
          some (asciiBytes "BT\n/F1 10 Tf\n14.5 TL\n48 82 Td\n<61> Tj\nT*\nET".toList) ∧
        OperationsComeBack
          [.beginText, .selectFont "F1" 10, .setLeading 14.5, .moveTo 48 82, .showText [0x61],
            .nextLine, .endText] (readContent (doc.pageContent second)) ∧
        doc.pageSizes = [some ⟨200, 130⟩, some ⟨200, 130⟩] ∧
        (∀ n object, doc.objects.lookup n = some object → doc.Reaches doc.trailer n) ∧
        ∀ c ∈ ['a', 'b'], Font.helvetica.Covers saved.document saved.fontNumber c := by
  intro setup actions
  have hsheets : (Ledger.run actions).committed =
      [⟨setup, [.text ['b']]⟩, ⟨setup, [.text ['a'], .lineBreak]⟩] := rfl
  have hlegible : setup.Legible := ⟨by decide +kernel, by decide +kernel, by decide +kernel,
    by decide +kernel⟩
  have hall := document_wellFormed File.library_lossless .helvetica actions
  rw [hsheets] at hall
  generalize (Session.run File.library .helvetica actions).output = output at hall ⊢
  intro _ doc saved
  obtain ⟨hwell, -, hcovers⟩ := hall
  obtain ⟨first, second, hkids⟩ := List.length_eq_two.1 hwell.count
  obtain ⟨catalog, hflat⟩ := hwell.tree
  have hpages := hwell.pages
  have hcontents := hwell.contents
  rw [hkids] at hflat hpages hcontents
  simp only [List.forall₂_cons, List.forall₂_nil_left_iff, and_true] at hpages hcontents
  obtain ⟨content, hcontent, hholds⟩ := hpages.2.content
  have hstream : Sheet.stream .helvetica ⟨setup, [.text ['a'], .lineBreak]⟩ =
      asciiBytes "BT\n/F1 10 Tf\n14.5 TL\n48 82 Td\n<61> Tj\nT*\nET".toList := by decide +kernel
  have htop : setup.size.height - setup.margin = 82 := by decide +kernel
  have hoperations : Sheet.operations .helvetica ⟨setup, [.text ['a'], .lineBreak]⟩ =
      [.beginText, .selectFont "F1" 10, .setLeading 14.5, .moveTo 48 82, .showText [0x61],
        .nextLine, .endText] := by
    simp only [Sheet.operations, Output.opening, htop]
    rfl
  have hread := hcontents.2.2 hlegible
  rw [hoperations] at hread
  have hpositive : 0 < setup.size.width ∧ 0 < setup.size.height := by decide +kernel
  refine ⟨File.library_lossless, hlegible, first, second, content, hwell.found.trans hkids,
    hflat.branch.2.1, hflat.branch.2.2, hpages.2.parent, hpages.2.resources, hcontent, ?_, hread,
    ?_, ?_, ?_⟩
  · rw [hholds.plainAt?, hstream]
  · have hfirst := hwell.sizes.2 0 _ rfl hpositive.1 hpositive.2
    have hsecond := hwell.sizes.2 1 _ rfl hpositive.1 hpositive.2
    have hlength : doc.pageSizes.length = 2 := hwell.sizes.1
    obtain ⟨a, b, hsizes⟩ := List.length_eq_two.1 hlength
    rw [hsizes] at hfirst hsecond
    rw [hsizes, Option.some.inj hfirst, Option.some.inj hsecond]
  · intro n object hn
    exact (hwell.reached n object hn).resolve_right fun h => List.cons_ne_nil _ _ h.1
  · have ha := hcovers ⟨setup, [.text ['a'], .lineBreak]⟩ (by simp) 'a' (by simp [drawnText])
    have hb := hcovers ⟨setup, [.text ['b']]⟩ (by simp) 'b' (by simp [drawnText])
    simpa using ⟨ha, hb⟩

/-- Before the first commit, the font and the resources are there, but the trailer does not lead to
them. -/
theorem resources_unreached :
    let doc := (Session.run File.library .helvetica [.serialize]).output.document
    ∃ object, doc.objects.lookup 3 = some object ∧ ¬ doc.Reaches doc.trailer 3 := by
  intro doc
  refine ⟨Output.resourcesNode 2, rfl, fun h => ?_⟩
  -- the catalog and the page tree without pages lead nowhere else
  have hclosed : ∀ n, doc.Reaches doc.trailer n → n = 4 ∨ n = 1 := by
    intro n hn
    induction hn with
    | start hn => exact .inl (List.mem_singleton.1 hn)
    | @step m n object _ found refers ih =>
      rcases ih with rfl | rfl
      · have hcatalog : doc.objects.lookup 4 = some (Output.catalogNode 1) := rfl
        cases found.symm.trans hcatalog
        rw [Output.references_catalogNode] at refers
        exact .inr (List.mem_singleton.1 refers)
      · have htree : doc.objects.lookup 1 = some (Output.treeNode []) := rfl
        cases found.symm.trans htree
        rw [Output.references_treeNode] at refers
        cases refers
  have hthree := hclosed 3 h
  omega

end Folio.Pdf
