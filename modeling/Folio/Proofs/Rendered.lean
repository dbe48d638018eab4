import Folio.Proofs.Measuring
import Folio.Proofs.PageOrder
import Folio.Proofs.Paragraphs
import Folio.Proofs.Recording

/-!
# Rendered documents

Over a sink that never fails, a document consists of one group of output pages for each source page,
in page order (`render_groups`). What can be seen on the pages of a group, below their headers, is
what stands for the source page: no character is lost, repeated or moved, wherever lines and pages
end. There is no more than the groups before it where the widths of a page can not be counted.
-/

set_option autoImplicit false

namespace Folio

/-! ## Pages that are committed -/

/-- The pages that a commit without an error appends to the output, in order. -/
def committedSheets (calls : List Call) : List Sheet :=
  calls.filterMap fun
    | .commit _ sheet none => some sheet
    | _ => none

/-- Where nothing fails, the pages are those that were meant. -/
theorem Wrote.of_reliable {fails : Prop} (hf : ¬ fails) {page : Nat} {sheets : List Sheet}
    {calls : List Call} {failure : Option RenderError} {log : Log}
    (h : Wrote fails page sheets calls failure log) :
    failure = none ∧ committedSheets calls = sheets := by
  have hpage {page : Nat} {sheet : Sheet} {calls : List Call} {failure : Option RenderError}
      {log : Log} (h : WrotePage fails page sheet calls failure log) : failure = none := by
    cases h with
    | refused _ h => exact absurd h hf
    | begun h =>
      generalize hs : sheet.strokes = strokes at h
      cases h with
      | closed failure h => exact Classical.not_not.1 fun hne => hf (h hne)
      | interrupted _ h => exact absurd h hf
  induction h with
  | nil => exact ⟨rfl, rfl⟩
  | @next page sheet sheets calls more failure log h hs ih =>
    refine ⟨ih.1, ?_⟩
    have hdrawn : committedSheets (drawn page sheet.strokes) = [] := by
      simp [committedSheets, drawn, List.filterMap_map]
    rw [h.of_none.1, committedSheets, List.filterMap_append, ← committedSheets, ← committedSheets,
      ih.2, ← List.singleton_append, committedSheets, List.filterMap_append, List.filterMap_append,
      ← committedSheets, ← committedSheets, hdrawn]
    rfl
  | stop h => cases hpage h

/-! ## Groups -/

/-- The characters that strokes draw. -/
def drawnText (strokes : List Stroke) : List Char :=
  strokes.flatMap fun
    | .text line => line
    | .lineBreak => []

theorem drawnText_lines (lines : List Line) :
    drawnText (lines.flatMap strokesOf) = lines.flatten := by
  induction lines with
  | nil => rfl
  | cons line lines ih =>
    have hline : drawnText (strokesOf line) = line := by
      cases line <;> simp [drawnText, strokesOf]
    rw [List.flatMap_cons, drawnText, List.flatMap_append, ← drawnText, ← drawnText, ih, hline,
      List.flatten_cons]

namespace Column

variable {column : Column}

theorem measures_of_blank {text : String} (h : Text.hasContent text = false) :
    column.Measures text.toList := by
  refine (column.wrapText_returns_iff _).1 ⟨[], ?_⟩
  have hblank : Text.trim text.toList = [] := by
    rw [Text.trim_eq_nil_iff]
    intro c hc
    simpa using List.any_eq_false.1 h c hc
  rw [wrapText, breakText, if_pos (by simpa using hblank)]
  rfl

variable (labels : Labels)

theorem translatedLines_returns_iff (translation : String) :
    (∃ lines, column.translatedLines labels translation = .ok lines) ↔
      column.Measures translation.toList := by
  constructor
  · rintro ⟨lines, hlines⟩
    obtain ⟨text, -, htext⟩ := translatedLines_cases hlines
    split at htext
    · exact (column.wrapText_returns_iff _).1 ⟨text, htext⟩
    · rename_i hblank
      exact measures_of_blank (Bool.eq_false_iff.2 hblank)
  · intro hmeasures
    obtain ⟨text, htext⟩ := (column.wrapText_returns_iff _).2 hmeasures
    unfold translatedLines
    rw [htext]
    split <;> exact ⟨_, rfl⟩

theorem originalLines_returns_iff (page : Page) :
    (∃ lines, column.originalLines labels page = .ok lines) ↔
      column.Measures page.text.toList := by
  rw [← wrapText_returns_iff]
  constructor
  · rintro ⟨lines, hlines⟩
    obtain ⟨text, htext, -⟩ := originalLines_cases hlines
    exact ⟨text, htext⟩
  · rintro ⟨text, htext⟩
    rw [originalLines, htext]
    exact ⟨_, rfl⟩

/-- A page is laid out if and only if all that is measured for its texts can be counted. -/
theorem contentLines_returns_iff (includeOriginal : Bool) (page : Page) (translation : String) :
    (∃ lines, column.contentLines labels includeOriginal page translation = .ok lines) ↔
      (includeOriginal = true → column.Measures page.text.toList) ∧
        column.Measures translation.toList := by
  constructor
  · rintro ⟨lines, hlines⟩
    obtain ⟨original, translated, -, horiginal, htranslated⟩ := contentLines_cases hlines
    refine ⟨fun hwanted => ?_, (translatedLines_returns_iff labels translation).1 ⟨_, htranslated⟩⟩
    cases hcontent : page.hasContent with
    | false => exact measures_of_blank hcontent
    | true =>
      rw [if_pos (by simp [hwanted, hcontent])] at horiginal
      exact (originalLines_returns_iff labels page).1 ⟨original, horiginal⟩
  · rintro ⟨horiginal, htranslated⟩
    obtain ⟨translated, htranslated⟩ :=
      (translatedLines_returns_iff labels translation).2 htranslated
    unfold contentLines
    rw [htranslated]
    split
    · rename_i hwanted
      obtain ⟨original, horiginal⟩ := (originalLines_returns_iff labels page).2
        (horiginal (Bool.and_eq_true_iff.1 hwanted).1)
      rw [horiginal]
      exact ⟨_, rfl⟩
    · exact ⟨_, rfl⟩

end Column

/-- The size that is listed for a page, where the list begins with that of page 1; US Letter, if
none is. -/
inductive ListedSize (sizes : List (Option PageSize)) (page : PageNumber) : PageSize → Prop
  | listed {i : ℕ} {size : PageSize} (hpage : page.toNat = i + 1)
      (hsize : sizes[i]? = some (some size)) : ListedSize sizes page size
  | letter (h : ∀ i size, page.toNat = i + 1 → sizes[i]? ≠ some (some size)) :
      ListedSize sizes page ⟨612, 792⟩

/-- The header of the first output page of a source page and those of the others, with the decimal
digits of its number put in. -/
def Labels.IsHeader (labels : Labels) (page : PageNumber) (segment : ℕ) (header : Line) : Prop :=
  Text.Replaces "\x7bpage\x7d".toList (Nat.toDigits 10 page.toNat)
    (if segment = 0 then labels.pageHeader.toList else labels.continuedHeader.toList) header

theorem Labels.isHeader_header (labels : Labels) (page : PageNumber) (segment : ℕ) :
    labels.IsHeader page segment (labels.header page segment) := by
  have hreplaced (template : List Char) :
      Text.Replaces placeholder.toList (Nat.toDigits 10 page.toNat) template
        (Text.replaceAll placeholder.toList (Nat.toDigits 10 page.toNat) template) :=
    Text.replaces_replaceAll (by decide) template
  unfold IsHeader header
  split
  · exact hreplaced labels.pageHeader.toList
  · exact hreplaced labels.continuedHeader.toList

theorem Labels.IsHeader.eq_header {labels : Labels} {page : PageNumber} {segment : ℕ}
    {header : Line} (h : labels.IsHeader page segment header) :
    labels.header page segment = header := by
  have hreplaced := Text.Replaces.eq_replaceAll (by decide) h
  unfold Labels.header
  split
  · rename_i hfirst
    rwa [if_pos hfirst] at hreplaced
  · rename_i hlater
    rwa [if_neg hlater] at hreplaced

namespace Renderer

theorem listedSize_sizeOf (sizes : List (Option PageSize)) (page : PageNumber) :
    ListedSize sizes page (sizeOf sizes page) := by
  unfold sizeOf
  split
  · rename_i hzero
    refine .letter fun i size hpage => ?_
    rw [hzero] at hpage
    cases hpage
  · rename_i hpositive
    have hpage : page.toNat = page.toNat - 1 + 1 := by
      have hne : page.toNat ≠ 0 := fun h => hpositive (UInt32.toNat_inj.1 h)
      omega
    have hletter (h : (sizes[page.toNat - 1]?).join = none) : ListedSize sizes page .letter := by
      refine .letter fun i size hi hsize => ?_
      obtain rfl : i = page.toNat - 1 := by omega
      rw [hsize] at h
      cases h
    cases hsize : sizes[page.toNat - 1]? with
    | none => exact hletter (by rw [hsize]; rfl)
    | some size =>
      cases size with
      | none => exact hletter (by rw [hsize]; rfl)
      | some size => exact .listed hpage hsize

variable (renderer : Renderer) (translations : Translations) (sizes : List (Option PageSize))

/-- All widths that are measured for a source page can be counted. -/
def Measures (page : Page) : Prop :=
  let column := renderer.column (sizeOf sizes page.number)
  (renderer.includeOriginal = true → column.Measures page.text.toList) ∧
    column.Measures ((translations.get? page.number).getD "").toList

/-- The output pages stand for a source page. `bodies` is what is drawn on each below its header. -/
structure IsGroup (page : Page) (group : List Sheet) (bodies : List (List Stroke)) : Prop where
  inhabited : group ≠ []
  size : ∀ sheet ∈ group, ListedSize sizes page.number sheet.setup.size
  headed : group.length = bodies.length ∧
    ∀ segment sheet body, group[segment]? = some sheet → bodies[segment]? = some body →
      ∃ header, renderer.labels.IsHeader page.number segment header ∧
        sheet.strokes = headerStrokes header ++ body
  text : Text.visible (drawnText bodies.flatten) =
    Text.visible (contentText renderer.labels renderer.includeOriginal page
      ((translations.get? page.number).getD ""))

variable {renderer translations sizes} {page : Page} {pages : List Page} {sheets : List Sheet}

theorem measures_iff :
    renderer.Measures translations sizes page ↔
      ∃ sheets, renderer.sheetsOf translations sizes page = .ok sheets := by
  rw [Measures, ← Column.contentLines_returns_iff renderer.labels, sheetsOf, layOut]
  constructor
  · rintro ⟨lines, hlines⟩
    rw [hlines]
    exact ⟨_, rfl⟩
  · rintro ⟨sheets, hsheets⟩
    obtain ⟨lines, hlines, -⟩ := Checked.of_bind hsheets
    exact ⟨lines, hlines⟩

theorem isGroup_of_sheetsOf (h : renderer.sheetsOf translations sizes page = .ok sheets) :
    ∃ bodies, renderer.IsGroup translations sizes page sheets bodies := by
  obtain ⟨lines, hlines, hsheets⟩ := Checked.of_bind h
  obtain rfl := Except.ok.inj hsheets
  refine ⟨((renderer.setup (sizeOf sizes page.number)).paginate lines).map (·.flatMap strokesOf),
    ?_, ?_, ⟨?_, ?_⟩, ?_⟩
  · simp [PageSetup.sheets, PageSetup.paginate]
  · intro sheet hs
    obtain ⟨⟨lines, i⟩, -, rfl⟩ := List.mem_map.1 hs
    exact listedSize_sizeOf sizes page.number
  · simp [PageSetup.sheets]
  · intro segment sheet body hsheet hbody
    simp only [PageSetup.sheets, List.getElem?_map, List.getElem?_zipIdx, Option.map_map,
      Option.map_eq_some_iff, Nat.zero_add] at hsheet hbody
    obtain ⟨pageLines, hpage, rfl⟩ := hsheet
    obtain ⟨bodyLines, hbody, rfl⟩ := hbody
    cases hpage.symm.trans hbody
    exact ⟨_, renderer.labels.isHeader_header page.number segment, rfl⟩
  · have hbodies (pages : List (List Line)) :
        (pages.map (·.flatMap strokesOf)).flatten = pages.flatten.flatMap strokesOf := by
      rw [← List.flatMap_def, ← List.flatMap_id, List.flatMap_assoc]
      rfl
    rw [hbodies, PageSetup.flatten_paginate, drawnText_lines, visible_contentLines hlines]

/-! ## Documents -/

variable (renderer translations sizes)

/-- What is drawn of source pages in order: the groups of those before the first one whose widths
can not be counted, at which the program panics, and otherwise of all. -/
theorem exists_groups (pages : List Page) :
    ∃ drawn rest groups, pages = drawn ++ rest ∧
      List.Forall₂ (fun page group => renderer.Measures translations sizes page ∧ ∃ bodies,
        renderer.IsGroup translations sizes page group bodies) drawn groups ∧
      renderer.sheetsUntilPanic translations sizes pages = groups.flatten ∧
      drawn.length ≤ groups.flatten.length ∧
      ((rest = [] ∧ renderer.sheetCount translations sizes pages = .ok groups.flatten.length) ∨
        ∃ page later, rest = page :: later ∧ ¬ renderer.Measures translations sizes page ∧
          renderer.sheetCount translations sizes pages = .error .overflow) := by
  induction pages with
  | nil => exact ⟨[], [], [], rfl, .nil, rfl, Nat.zero_le _, .inl ⟨rfl, rfl⟩⟩
  | cons page pages ih =>
    cases hsheets : renderer.sheetsOf translations sizes page with
    | error panic =>
      cases panic
      have hmeasures : ¬ renderer.Measures translations sizes page := by
        rw [measures_iff, hsheets]
        rintro ⟨sheets, h⟩
        cases h
      exact ⟨[], page :: pages, [], rfl, .nil, sheetsUntilPanic_of_panic hsheets, Nat.zero_le _,
        .inr ⟨page, pages, rfl, hmeasures, sheetCount_of_panic hsheets⟩⟩
    | ok sheets =>
      obtain ⟨drawn, rest, groups, rfl, hgroups, hdrawn, hlength, hend⟩ := ih
      obtain ⟨bodies, hgroup⟩ := isGroup_of_sheetsOf hsheets
      have hpos := List.length_pos_of_ne_nil hgroup.inhabited
      refine ⟨page :: drawn, rest, sheets :: groups, rfl,
        .cons ⟨measures_iff.2 ⟨sheets, hsheets⟩, bodies, hgroup⟩ hgroups, ?_, ?_, ?_⟩
      · rw [sheetsUntilPanic_of_ok hsheets, hdrawn, List.flatten_cons]
      · rw [List.flatten_cons, List.length_append, List.length_cons]
        omega
      · rw [sheetCount_of_ok hsheets]
        rcases hend with ⟨hrest, hcount⟩ | ⟨next, later, hrest, hmeasures, hcount⟩
        · refine .inl ⟨hrest, ?_⟩
          rw [hcount, List.flatten_cons, List.length_append]
          rfl
        · exact .inr ⟨next, later, hrest, hmeasures, by rw [hcount]; rfl⟩

/-- Over a sink that never fails, the output pages that are meant are counted. -/
theorem render_result {σ κ : Type} {sink : Sink σ κ} (hs : sink.Reliable) (pages : List Page)
    (state : σ) : (renderer.render sink pages translations sizes state).result =
      .ok (renderer.sheetCount translations sizes (Page.sort pages)) := by
  obtain ⟨calls, -, hw, hcount⟩ :=
    renderer.renderSorted_recorded sink translations sizes (Page.sort pages) ⟨state, []⟩
  obtain ⟨hnone, -⟩ := hw.of_reliable (not_not_intro hs)
  cases hr : (renderer.renderSorted sink translations sizes state (Page.sort pages)).result with
  | error e => rw [hr] at hnone; cases hnone
  | ok count => rw [render, hr, hcount count hr]

/-- Source pages are rendered in page order, each to a group of its own that holds all that stands
for it. The widths that are measured for a page must be such that they can be counted: all pages are
rendered if they are, and the pages before the first one for which they are not. -/
theorem render_groups {σ κ : Type} (sink : Sink σ κ) (hs : sink.Reliable) {pages : List Page}
    (hn : (pages.map Page.number).Nodup) (state : σ) :
    let run := renderer.render sink pages translations sizes state
    let record := renderer.render sink.recorded pages translations sizes ⟨state, []⟩
    ∃ drawn rest groups, (drawn ++ rest).Perm pages ∧
      (drawn ++ rest).Pairwise (·.number < ·.number) ∧
      List.Forall₂ (fun page group => renderer.Measures translations sizes page ∧ ∃ bodies,
        renderer.IsGroup translations sizes page group bodies) drawn groups ∧
      record.state.inner = run.state ∧ committedSheets record.state.calls = groups.flatten ∧
      drawn.length ≤ groups.flatten.length ∧
      ((rest = [] ∧ run.result = .ok (.ok groups.flatten.length)) ∨
        ∃ page later, rest = page :: later ∧ ¬ renderer.Measures translations sizes page ∧
          run.result = .ok (.error .overflow)) := by
  obtain ⟨calls, hrec, hw, -⟩ :=
    renderer.renderSorted_recorded sink translations sizes (Page.sort pages) ⟨state, []⟩
  obtain ⟨-, hsheets⟩ := hw.of_reliable (not_not_intro hs)
  have hperm := Page.sort_perm pages
  have hascending := (Page.pairwise_lt_iff_nodup (Page.sort_ascending pages)).2
    ((hperm.map Page.number).nodup_iff.2 hn)
  obtain ⟨drawn, rest, groups, hsplit, hgroups, hdrawn, hlength, hend⟩ :=
    renderer.exists_groups translations sizes (Page.sort pages)
  rw [hsplit] at hperm hascending
  refine ⟨drawn, rest, groups, hperm, hascending, hgroups, ?_, ?_, hlength, ?_⟩
  · rw [render, hrec]
    rfl
  · rw [render, hrec, ← hdrawn]
    exact hsheets
  · rw [render_result renderer translations sizes hs]
    rcases hend with ⟨hrest, hcount⟩ | ⟨page, later, hrest, hmeasures, hcount⟩
    · exact .inl ⟨hrest, congrArg Except.ok hcount⟩
    · exact .inr ⟨page, later, hrest, hmeasures, congrArg Except.ok hcount⟩

/-! ### Fixed pages -/

theorem eq_sizeOf {page : PageNumber} {size : PageSize} (h : ListedSize sizes page size) :
    size = sizeOf sizes page := by
  cases h with
  | @listed i _ hpage hsize =>
    have hpositive : ¬ page = 0 := fun hzero => by
      rw [hzero] at hpage
      cases hpage
    rw [sizeOf, if_neg hpositive, hpage, Nat.add_sub_cancel, hsize]
    rfl
  | letter h =>
    unfold sizeOf
    split
    · rfl
    · rename_i hpositive
      have hne : page.toNat ≠ 0 := fun h => hpositive (UInt32.toNat_inj.1 h)
      have hpage : page.toNat = page.toNat - 1 + 1 := by omega
      cases hsize : sizes[page.toNat - 1]? with
      | none => rfl
      | some size =>
        cases size with
        | none => rfl
        | some size => exact absurd hsize (h _ size hpage)

theorem IsGroup.sheet_eq {renderer : Renderer} {page : Page} {group : List Sheet}
    {bodies : List (List Stroke)} (h : renderer.IsGroup translations sizes page group bodies)
    {segment : ℕ} {sheet : Sheet} (hsheet : group[segment]? = some sheet) :
    ∃ body ∈ bodies[segment]?, sheet.strokes =
      headerStrokes (renderer.labels.header page.number segment) ++ body := by
  have hlt : segment < bodies.length := by
    rw [← h.headed.1]
    exact (List.getElem?_eq_some_iff.1 hsheet).1
  obtain ⟨header, hheader, hstrokes⟩ := h.headed.2 segment sheet bodies[segment] hsheet
    (List.getElem?_eq_getElem hlt)
  refine ⟨bodies[segment], List.getElem?_eq_getElem hlt, ?_⟩
  rw [hstrokes, ← hheader.eq_header]

/-- A sink that takes whatever is drawn. -/
def blankSink : Sink Unit Unit where
  beginPage _ state := (.ok (), state)
  showText _ canvas state := (.ok (), canvas, state)
  newLine canvas state := (.ok (), canvas, state)
  commitPage _ state := (.ok (), state)

theorem blankSink_reliable : blankSink.Reliable :=
  ⟨fun _ _ => rfl, fun _ _ _ => rfl, fun _ _ => rfl, fun _ _ => rfl⟩

/-- Two pages, of which the first is so short that its lines need several output pages. -/
theorem render_groups_two_pages :
    let renderer : Renderer := {
      charWidth := fun _ => 500, fontSize := 12, includeOriginal := true }
    let pages : List Page := [⟨2, "b"⟩, ⟨1, "a"⟩]
    let translations : Translations := ⟨[(1, "c")]⟩
    let sizes : List (Option PageSize) := [some ⟨300, 130⟩]
    let run := renderer.render blankSink pages translations sizes ()
    let record := renderer.render blankSink.recorded pages translations sizes ⟨(), []⟩
    blankSink.Reliable ∧ (pages.map Page.number).Nodup ∧
      ∃ first second : List Sheet, ∃ firstBodies secondBodies : List (List Stroke),
        committedSheets record.state.calls = first ++ second ∧
        run.result = .ok (.ok (first ++ second).length) ∧ first ≠ [] ∧ second ≠ [] ∧
        (∀ sheet ∈ first, sheet.setup.size = ⟨300, 130⟩) ∧
        (∀ sheet ∈ second, sheet.setup.size = ⟨612, 792⟩) ∧
        (∀ (segment : ℕ) (sheet : Sheet), first[segment]? = some sheet →
          ∃ body ∈ firstBodies[segment]?, sheet.strokes =
            .text (if segment = 0 then "Page 1" else "Page 1 (continued)").toList ::
              .lineBreak :: body) ∧
        (∀ (segment : ℕ) (sheet : Sheet), second[segment]? = some sheet →
          ∃ body ∈ secondBodies[segment]?, sheet.strokes =
            .text (if segment = 0 then "Page 2" else "Page 2 (continued)").toList ::
              .lineBreak :: body) ∧
        Text.visible (drawnText firstBodies.flatten) = "OriginaltextaTranslatedtextc".toList ∧
        Text.visible (drawnText secondBodies.flatten) =
          "OriginaltextbTranslatedtextNotranslatabletextdetectedonthispage.".toList := by
  intro renderer pages translations sizes run record
  have hn : (pages.map Page.number).Nodup := by decide
  obtain ⟨drawn, rest, groups, hperm, hsorted, hgroups, -, hcommitted, -, hend⟩ :=
    render_groups renderer translations sizes blankSink blankSink_reliable hn ()
  have hmeasures (page : Page) (hpage : page ∈ pages) :
      renderer.Measures translations sizes page := by
    have hlaid : ∀ page ∈ pages, (renderer.sheetsOf translations sizes page).isOk := by decide
    rw [measures_iff]
    have hok := hlaid page hpage
    cases hsheets : renderer.sheetsOf translations sizes page with
    | error panic => rw [hsheets] at hok; cases hok
    | ok sheets => exact ⟨sheets, rfl⟩
  have hstrict (a b : Page) (_ : a ∈ drawn ++ rest) (_ : b ∈ [⟨1, "a"⟩, ⟨2, "b"⟩])
      (hab : a.number < b.number) (hba : b.number < a.number) : a = b :=
    absurd (UInt32.lt_trans hab hba) (UInt32.lt_irrefl _)
  have horder : drawn ++ rest = [⟨1, "a"⟩, ⟨2, "b"⟩] :=
    (hperm.trans (by decide)).eq_of_pairwise hstrict hsorted (by decide)
  obtain ⟨rfl, hresult⟩ : rest = [] ∧ run.result = .ok (.ok groups.flatten.length) := by
    rcases hend with hend | ⟨page, later, rfl, hnot, -⟩
    · exact hend
    · exact absurd (hmeasures page (hperm.mem_iff.1 (by simp))) hnot
  rw [List.append_nil] at horder
  subst horder
  obtain ⟨first, later, ⟨-, firstBodies, hfirst⟩, hlater, rfl⟩ :=
    List.forall₂_cons_left_iff.1 hgroups
  obtain ⟨second, none, ⟨-, secondBodies, hsecond⟩, hnone, rfl⟩ :=
    List.forall₂_cons_left_iff.1 hlater
  cases hnone
  have hgroup : [first, second].flatten = first ++ second := by simp
  rw [hgroup] at hcommitted hresult
  have hheader (segment : ℕ) : headerStrokes (renderer.labels.header 1 segment) =
      [.text (if segment = 0 then "Page 1" else "Page 1 (continued)").toList, .lineBreak] := by
    cases segment with
    | zero => decide
    | succ segment =>
      show headerStrokes (renderer.labels.header 1 1) = [.text "Page 1 (continued)".toList, _]
      decide
  have hheader' (segment : ℕ) : headerStrokes (renderer.labels.header 2 segment) =
      [.text (if segment = 0 then "Page 2" else "Page 2 (continued)").toList, .lineBreak] := by
    cases segment with
    | zero => decide
    | succ segment =>
      show headerStrokes (renderer.labels.header 2 1) = [.text "Page 2 (continued)".toList, _]
      decide
  refine ⟨blankSink_reliable, hn, first, second, firstBodies, secondBodies, hcommitted, hresult,
    hfirst.inhabited, hsecond.inhabited, ?_, ?_, ?_, ?_, hfirst.text.trans (by decide),
    hsecond.text.trans (by decide)⟩
  · exact fun sheet hsheet => (eq_sizeOf sizes (hfirst.size sheet hsheet)).trans (by decide)
  · exact fun sheet hsheet => (eq_sizeOf sizes (hsecond.size sheet hsheet)).trans (by decide)
  · intro segment sheet hsheet
    obtain ⟨body, hbody, hstrokes⟩ := hfirst.sheet_eq translations sizes hsheet
    rw [hheader segment] at hstrokes
    exact ⟨body, hbody, hstrokes⟩
  · intro segment sheet hsheet
    obtain ⟨body, hbody, hstrokes⟩ := hsecond.sheet_eq translations sizes hsheet
    rw [hheader' segment] at hstrokes
    exact ⟨body, hbody, hstrokes⟩

/-- A word that is measured as a whole can not be counted if it is long enough. -/
theorem not_measures_replicate {column : Column} {n : ℕ}
    (h : 2 ^ 32 ≤ (n + 1) * (column.charWidth 'a').toNat) :
    ¬ column.Measures (List.replicate (n + 1) 'a') := by
  intro hmeasures
  have hword : Column.IsWord (List.replicate (n + 1) 'a') :=
    Column.isWord_replicate (by decide) n
  have htight : Text.Tight (List.replicate (n + 1) 'a') :=
    ⟨⟨'a', _, List.replicate_succ, by decide⟩, ⟨_, 'a', List.replicate_succ', by decide⟩⟩
  have hline : Text.lines (List.replicate (n + 1) 'a') = [List.replicate (n + 1) 'a'] :=
    Text.splitWhere_uncut fun c hc => by rw [List.eq_of_mem_replicate hc]; decide
  have hparagraph : List.replicate (n + 1) 'a' ∈
      Column.paragraphs (List.replicate (n + 1) 'a') := by
    rw [Column.paragraphs_eq, hline, List.map_singleton, Text.trim_tight htight]
    exact List.mem_singleton_self _
  have hmem : List.replicate (n + 1) 'a' ∈ Column.words (List.replicate (n + 1) 'a') := by
    rw [Column.words_of_isWord hword]
    exact List.mem_singleton_self _
  have hcounts : ¬ column.Counts (List.replicate (n + 1) 'a') := by
    rwa [Column.not_counts_iff, thousandths_replicate]
  obtain ⟨line, hmeasured, hover⟩ :=
    Column.exists_over_of_word (Column.not_isUnspaced_replicate n) hmem hcounts
  exact hover (hmeasures _ hparagraph line hmeasured)

/-- A page whose translation is a word of 65538 of the widest characters is not rendered. -/
theorem render_word_runs_over :
    let renderer : Renderer := { charWidth := fun _ => 65535, fontSize := 6 }
    let translations : Translations := ⟨[(1, String.ofList (List.replicate 65538 'a'))]⟩
    blankSink.Reliable ∧
      (renderer.render blankSink [⟨1, ""⟩] translations [some ⟨40096, 792⟩] ()).result =
        .ok (.error .overflow) := by
  intro renderer translations
  have hnot : ¬ renderer.Measures translations [some ⟨40096, 792⟩] ⟨1, ""⟩ := by
    rintro ⟨-, hmeasures⟩
    have htext : ((translations.get? 1).getD "").toList = List.replicate 65538 'a' :=
      String.toList_ofList
    rw [htext] at hmeasures
    exact not_measures_replicate (by decide) hmeasures
  have hsheets : renderer.sheetsOf translations [some ⟨40096, 792⟩] ⟨1, ""⟩ = .error .overflow := by
    rw [measures_iff] at hnot
    cases h : renderer.sheetsOf translations [some ⟨40096, 792⟩] ⟨1, ""⟩ with
    | error panic => cases panic; rfl
    | ok sheets => exact absurd ⟨sheets, h⟩ hnot
  exact ⟨blankSink_reliable, (render_result renderer translations _ blankSink_reliable _ ()).trans
    (congrArg Except.ok (sheetCount_of_panic hsheets))⟩

end Renderer

end Folio
