import Folio.Conversion
import Folio.Pdf.File
import Folio.Proofs.Files
import Folio.Proofs.Pdf.Rendering

/-!
# Jobs between files

A job between files changes nothing unless all of it goes well (`convertFile_atomic`): where it
comes to no summary, every file is as it was, and where it does, one file is written, which holds
the document that was rendered. Whether that file can be read is up to the library; if it reads what
it has written, the file loads as a document of as many pages as are counted. Nothing is sent before
the input is loaded and the request is resolved.
-/

set_option autoImplicit false

namespace Folio.Config

open Files Pdf.Output

variable {σ : Type}

/-! ## The document -/

section
variable {config : Config} {files : Files} {request : Request} {source : Pdf.Document}
  {transport : Transport σ} {state : σ} {document : Pdf.Output} {summary : Summary}

/-- The document that is composed has as many pages as were counted. -/
theorem compose_eq_ok {job : Job} {pages : List Page} {translations : Translations}
    {sizes : List (Option PageSize)}
    (h : (config.compose files job pages translations sizes).1 = .ok (.ok (document, summary))) :
    ∃ font sheets, Represents font sheets document ∧ sheets.length = summary.outputPages := by
  unfold compose at h
  rcases hload : config.fontSource.load files (Face.ofLanguage job.targetLanguage) with
    ⟨_ | font, log⟩
  · simp [hload] at h
  · let renderer : Renderer := {
      charWidth := font.charWidth
      fontSize := sanitizeFontSize job.fontSize
      includeOriginal := job.includeOriginalText }
    obtain ⟨hresult, hstate⟩ := renderer.renderSorted_represents translations sizes
      (represents_new font) (Page.sort pages)
    have hrun : renderDocument job font pages translations sizes =
      renderer.renderSorted sink translations sizes (Pdf.Output.new font) (Page.sort pages) := rfl
    simp only [hload, hrun, hresult] at h
    cases hcount : renderer.sheetCount translations sizes (Page.sort pages) with
    | error panic => simp [hcount, Except.map] at h
    | ok count =>
      rw [hcount] at h
      cases h
      exact ⟨font, _, hstate, Renderer.length_sheetsUntilPanic hcount⟩

theorem convert_eq_ok
    (h : (config.convert transport files request source state).result =
      .ok (.ok (document, summary))) :
    ∃ font sheets, Represents font sheets document ∧ sheets.length = summary.outputPages := by
  unfold convert at h
  cases hjob : Job.resolve config.llm request with
  | error e => simp [hjob] at h
  | ok job =>
    simp only [hjob] at h
    split at h
    · cases h
    · exact compose_eq_ok h

/-- The document that is written has the pages that were counted, and so has the one that is read
again. -/
theorem convert_pages (h : (config.convert transport files request source state).result =
      .ok (.ok (document, summary))) (library : Pdf.Library) :
    let written := (document.serialize library).output.document
    written.pages.length = summary.outputPages ∧
      ∀ found, written.comesBackAs found → found.pages.length = summary.outputPages := by
  intro written
  obtain ⟨font, sheets, hdocument, hcount⟩ := convert_eq_ok h
  obtain ⟨catalog, tree, kids, hflat, hlength⟩ := hdocument.isFlat_serialize library
  rw [hflat.pages_eq, ← hcount]
  exact ⟨hlength, fun found hback => by rw [(hflat.comesBack hback).pages_eq, hlength]⟩

/-- A request that cannot be resolved is not sent anywhere. -/
theorem convert_of_resolve_error (transport : Transport σ) (files : Files)
    (source : Pdf.Document) (state : σ) {e : TranslationError}
    (h : Job.resolve config.llm request = .error e) :
    (config.convert transport files request source state).result = .error (.translation e) ∧
      (config.convert transport files request source state).state = state := by
  unfold convert
  rw [h]
  exact ⟨rfl, rfl⟩

end

/-! ## Storing -/

section
variable {library : Pdf.Library} {files : Files} {path : String} {document : Pdf.Output}
  {summary : Summary}

theorem makeParent_sameFiles (files : Files) (path : String) :
    SameFiles files (makeParent files path).2 := by
  unfold makeParent
  split
  · exact .refl files
  · exact .refl files
  · exact makeDirectories_sameFiles _ _

theorem saveDocument_eq_ok {after : Files}
    (h : (saveDocument library files path document).1 = .ok after) :
    files.write path ⟨(document.serialize library).bytes.toArray⟩ = .ok after := by
  unfold saveDocument at h
  cases hwrite : files.write path ⟨(document.serialize library).bytes.toArray⟩ with
  | error e => simp [hwrite] at h
  | ok written => simpa [hwrite] using h

/-- Where a document cannot be stored, no file changes. -/
theorem store_error {e : AppError}
    (h : (store library files path document summary).result = .error e) :
    SameFiles files (store library files path document summary).files := by
  have hparent := makeParent_sameFiles files path
  unfold store at h ⊢
  rcases hmade : makeParent files path with ⟨_ | u, made⟩
  · rw [hmade] at hparent
    exact hparent
  · rw [hmade] at hparent
    rcases hsave : saveDocument library made path document with ⟨_ | after, log⟩
    · simp only [hsave]
      exact hparent
    · simp [hmade, hsave] at h

/-- Where a document is stored, one file holds it, and no other file changes. -/
theorem store_ok (h : (store library files path document summary).result = .ok ()) :
    ∃ place, (store library files path document summary).files.locate path = .ok place ∧
      (store library files path document summary).files.at? place =
        some (.file ⟨(document.serialize library).bytes.toArray⟩) ∧
      SameFilesExcept place files (store library files path document summary).files := by
  have hparent := makeParent_sameFiles files path
  unfold store at h ⊢
  rcases hmade : makeParent files path with ⟨_ | u, made⟩
  · simp [hmade] at h
  · rw [hmade] at hparent
    rcases hsave : saveDocument library made path document with ⟨_ | after, log⟩
    · simp [hmade, hsave] at h
    · obtain ⟨place, hplace, hat, hexcept⟩ :=
        write_spec (saveDocument_eq_ok (congrArg Prod.fst hsave))
      simp only [hsave]
      exact ⟨place, hplace, hat, hparent.except hexcept⟩

/-- A file that holds a document loads as what the library reads. -/
theorem exists_loadDocument {place : Place} (hplace : files.locate path = .ok place)
    (hat : files.at? place = some (.file ⟨(document.serialize library).bytes.toArray⟩))
    (h : library.returns (document.serialize library).output.document) :
    ∃ found, loadDocument library files path = .ok found ∧
      (document.serialize library).output.document.comesBackAs found := by
  obtain ⟨found, hread, hback⟩ := Pdf.Library.exists_read_of_returns h
  have hbytes : library.read (document.serialize library).bytes = .ok found := hread
  refine ⟨found, ?_, hback⟩
  rw [loadDocument, read_of_at? hplace hat]
  simp only [hbytes]

end

/-! ## The whole job -/

/-- The ways that a job between files can go: there is nothing to convert, the conversion fails or
panics, or its document is stored. -/
theorem convertFile_cases (config : Config) (library : Pdf.Library) (transport : Transport σ)
    (files : Files) (request : Request) (input output : String) (state : σ) :
    let run := config.convertFile library transport files request input output state
    (∃ e, run.result = .error e ∧ run.state = state ∧ run.files = files) ∨
    ∃ source, files.isFile input = true ∧ loadDocument library files input = .ok source ∧
      let converted := config.convert transport files request source state
      run.state = converted.state ∧
      ((∃ e, converted.result = .error e ∧ run.result = .error e ∧ run.files = files) ∨
        (∃ panic, converted.result = .ok (.error panic) ∧ run.result = .ok (.error panic) ∧
          run.files = files) ∨
        ∃ document summary, converted.result = .ok (.ok (document, summary)) ∧
          run.result =
            (store library files output document summary).result.map (fun () => .ok summary) ∧
          run.files = (store library files output document summary).files) := by
  unfold convertFile
  by_cases hinput : files.isFile input
  · rw [if_neg (by simp [hinput])]
    cases hload : loadDocument library files input with
    | error e => exact .inl ⟨_, rfl, rfl, rfl⟩
    | ok source =>
      refine .inr ⟨source, hinput, rfl, ?_⟩
      cases hconvert : (config.convert transport files request source state).result with
      | error e =>
        refine ⟨?_, .inl ⟨e, hconvert, ?_, ?_⟩⟩
        all_goals simp only [hconvert]
      | ok converted =>
        cases converted with
        | error panic =>
          refine ⟨?_, .inr (.inl ⟨panic, hconvert, ?_, ?_⟩)⟩
          all_goals simp only [hconvert]
        | ok converted =>
          obtain ⟨document, summary⟩ := converted
          refine ⟨?_, .inr (.inr ⟨document, summary, hconvert, ?_, ?_⟩)⟩
          all_goals simp only [hconvert]
  · rw [if_pos (by simp [hinput])]
    exact .inl ⟨_, rfl, rfl, rfl⟩

section
variable {config : Config} {library : Pdf.Library} {transport : Transport σ} {files : Files}
  {request : Request} {input output : String} {state : σ}

/-- A job that comes to no summary leaves every file as it was. -/
theorem convertFile_failed
    (h : ∀ summary, (config.convertFile library transport files request input output state).result ≠
      .ok (.ok summary)) :
    SameFiles files
      (config.convertFile library transport files request input output state).files := by
  rcases config.convertFile_cases library transport files request input output state with
    ⟨-, -, -, hfiles⟩ | ⟨source, -, -, -,
      ⟨-, -, -, hfiles⟩ | ⟨-, -, -, hfiles⟩ | ⟨document, summary, -, hresult, hfiles⟩⟩
  · rw [hfiles]
    exact .refl files
  · rw [hfiles]
    exact .refl files
  · rw [hfiles]
    exact .refl files
  · rw [hfiles]
    cases hstore : (store library files output document summary).result with
    | error e => exact store_error hstore
    | ok u =>
      rw [hstore] at hresult
      exact absurd hresult (h summary)

/-- A job that comes to a summary has stored the document that the input was converted to. -/
theorem convertFile_stored {summary : Summary}
    (h : (config.convertFile library transport files request input output state).result =
      .ok (.ok summary)) :
    ∃ source document, loadDocument library files input = .ok source ∧
      (config.convert transport files request source state).result =
        .ok (.ok (document, summary)) ∧
      (store library files output document summary).result = .ok () ∧
      (config.convertFile library transport files request input output state).files =
        (store library files output document summary).files := by
  rcases config.convertFile_cases library transport files request input output state with
    ⟨e, hresult, -⟩ | ⟨source, -, hload, -,
      ⟨e, -, hresult, -⟩ | ⟨panic, -, hresult, -⟩ | ⟨document, counted, hconvert, hresult, hfiles⟩⟩
  · cases h.symm.trans hresult
  · cases h.symm.trans hresult
  · cases h.symm.trans hresult
  · cases hstore : (store library files output document counted).result with
    | error e =>
      rw [hstore] at hresult
      cases h.symm.trans hresult
    | ok u =>
      rw [hstore] at hresult
      cases h.symm.trans hresult
      exact ⟨source, document, hload, hconvert, hstore, hfiles⟩

/-- Without an input that can be loaded and a request that can be resolved, nothing is sent. -/
theorem convertFile_unsent
    (h : files.isFile input = false ∨ (∃ e, loadDocument library files input = .error e) ∨
      ∃ e, Job.resolve config.llm request = .error e) :
    (∃ e, (config.convertFile library transport files request input output state).result =
      .error e) ∧
    (config.convertFile library transport files request input output state).state = state := by
  rcases config.convertFile_cases library transport files request input output state with
    ⟨e, hresult, hstate, -⟩ | ⟨source, hinput, hload, hstate, hconverted⟩
  · exact ⟨⟨e, hresult⟩, hstate⟩
  · obtain ⟨e, hresolve⟩ : ∃ e, Job.resolve config.llm request = .error e := by
      simpa [hinput, hload] using h
    obtain ⟨hfailed, hsame⟩ := convert_of_resolve_error transport files source state hresolve
    rcases hconverted with ⟨e, -, hresult, -⟩ | ⟨panic, hconvert, -⟩ |
      ⟨document, summary, hconvert, -⟩
    · exact ⟨⟨e, hresult⟩, hstate.trans hsame⟩
    · cases hfailed.symm.trans hconvert
    · cases hfailed.symm.trans hconvert

end

/-- A job between files is all or nothing: where it comes to no summary, every file is as it was and
none is new; where it does, only the output is written, and holds what the library writes for a
document of as many pages as are counted. If the library reads that document again, as many are
found when the output is loaded. Nothing is sent for a request that cannot be resolved or an input
that cannot be loaded. -/
theorem convertFile_atomic (config : Config) (library : Pdf.Library) (transport : Transport σ)
    (files : Files) (request : Request) (input output : String) (state : σ) :
    let run := config.convertFile library transport files request input output state
    ((∀ summary, run.result ≠ .ok (.ok summary)) → SameFiles files run.files) ∧
    (∀ summary, run.result = .ok (.ok summary) →
      ∃ (source : Pdf.Document) (document : Pdf.Output) (place : Place),
        let written := (document.serialize library).output.document
        loadDocument library files input = .ok source ∧
        (config.convert transport files request source state).result =
          .ok (.ok (document, summary)) ∧
        run.files.locate output = .ok place ∧
        run.files.at? place = some (.file ⟨(library.write written).toArray⟩) ∧
        SameFilesExcept place files run.files ∧
        written.pages.length = summary.outputPages ∧
        (library.returns written → ∃ loaded, loadDocument library run.files output = .ok loaded ∧
          loaded.pages.length = summary.outputPages)) ∧
    (files.isFile input = false ∨ (∃ e, loadDocument library files input = .error e) ∨
        (∃ e, Job.resolve config.llm request = .error e) →
      (∃ e, run.result = .error e) ∧ run.state = state) := by
  intro run
  refine ⟨convertFile_failed, ?_, convertFile_unsent⟩
  intro summary h
  obtain ⟨source, document, hload, hconvert, hstore, hfiles⟩ := convertFile_stored h
  obtain ⟨place, hplace, hat, hexcept⟩ := store_ok hstore
  obtain ⟨hpages, hback⟩ := convert_pages hconvert library
  rw [← hfiles] at hplace hat hexcept
  refine ⟨source, document, place, hload, hconvert, hplace, hat, hexcept, hpages, ?_⟩
  intro hreturns
  obtain ⟨loaded, hloaded, hsame⟩ := exists_loadDocument hplace hat hreturns
  exact ⟨loaded, hloaded, hback loaded hsame⟩

/-- A file that holds a document with a page of text. -/
def onePage : Files :=
  let setup : PageSetup := { size := ⟨200, 130⟩, fontSize := 10, leading := 14, margin := 48 }
  let page := showText .helvetica ['H', 'i'] (blankCanvas setup)
  let output := (Pdf.Output.new .helvetica).commit page
  Files.empty.add "in.pdf" ⟨(output.serialize Pdf.File.library).bytes.toArray⟩

/-- The answer to a request for the translation of one page. -/
def oneReply : Script where
  replies := [.body ("\x7b\"choices\":[\x7b\"message\":\x7b\"content\":" ++
    "\"\x7b\\\"1\\\":\\\"Salut\\\"\x7d\"\x7d\x7d]\x7d")]

/-- A job whose output lies in a directory that is not there yet. -/
theorem convertFile_atomic_one_page :
    let config : Config := { llm := { enabled := true, model := "m" } }
    let run := config.convertFile Pdf.File.library Script.transport onePage
      { targetLanguage := "fr" } "in.pdf" "out/new.pdf" oneReply
    run.result = .ok (.ok ⟨1, 1⟩) ∧ run.state.sent.length = 1 ∧
      SameFilesExcept ["out", "new.pdf"] onePage run.files ∧
      ∃ loaded, loadDocument Pdf.File.library run.files "out/new.pdf" = .ok loaded ∧
        loaded.pages.length = 1 := by
  intro config run
  obtain ⟨hresult, hsent, hplace⟩ : run.result = .ok (.ok ⟨1, 1⟩) ∧ run.state.sent.length = 1 ∧
      run.files.locate "out/new.pdf" = .ok ["out", "new.pdf"] := by decide +kernel
  have hcomesBack : ((loadDocument Pdf.File.library onePage "in.pdf").toOption.bind fun source =>
      (config.convert Script.transport onePage { targetLanguage := "fr" } source
        oneReply).result.toOption.bind fun converted =>
      converted.toOption.map fun done =>
        Pdf.File.library.returns (done.1.serialize Pdf.File.library).output.document) =
      some true := by decide +kernel
  obtain ⟨source, document, place, hload, hconvert, hlocate, -, hexcept, -, hloaded⟩ :=
    (convertFile_atomic config Pdf.File.library Script.transport onePage { targetLanguage := "fr" }
      "in.pdf" "out/new.pdf" oneReply).2.1 _ hresult
  simp only [hload, hconvert, Except.toOption, Option.bind_some, Option.map_some, Option.some.injEq]
    at hcomesBack
  obtain rfl : _ = place := Except.ok.inj (hplace.symm.trans hlocate)
  exact ⟨hresult, hsent, hexcept, hloaded hcomesBack⟩

end Folio.Config
