import Folio.Config
import Folio.Font.Source
import Folio.Pdf.Output
import Folio.Pdf.Source
import Folio.Renderer
import Folio.Translation

/-!
# Converting documents

A whole job: the text of a document is extracted, translated and rendered into an output document.
Between files, nothing is written unless all of that went well, and then the output is the only file
that changes.
-/

set_option autoImplicit false

namespace Folio

/-- What a job came to, in numbers. -/
structure Summary where
  sourcePages : Nat
  outputPages : Nat
deriving DecidableEq, Repr

/-- What a job did: its result, what was reported, and the state that the transport is left in. -/
structure Conversion (σ α : Type) where
  result : Except AppError α
  log : Log
  state : σ

/-- What storing a document came to, and the files afterwards. -/
structure Stored where
  result : Except AppError Unit
  log : Log
  files : Files

/-- What a job between files did: its result, what was reported, and the state that the transport
and the files are left in. -/
structure FileConversion (σ : Type) where
  result : Except AppError (Checked Summary)
  log : Log
  state : σ
  files : Files

namespace Config

variable {σ : Type}

/-- Where the fonts of jobs come from. -/
def fontSource (config : Config) : FontSource :=
  match config.fontDirectory with
  | some path => .directory path
  | none => .builtin

/-- Lays out and writes translated pages in a font. -/
def renderDocument (job : Job) (font : Font) (pages : List Page) (translations : Translations)
    (sizes : List (Option PageSize)) : Drawn Pdf.Output (Checked Nat) :=
  let renderer : Renderer := {
    charWidth := font.charWidth
    fontSize := sanitizeFontSize job.fontSize
    includeOriginal := job.includeOriginalText }
  renderer.render Pdf.Output.sink pages translations sizes (Pdf.Output.new font)

/-- The output document for translated pages, and what is reported on the way. -/
def compose (config : Config) (files : Files) (job : Job) (pages : List Page)
    (translations : Translations) (sizes : List (Option PageSize)) :
    Except AppError (Checked (Pdf.Output × Summary)) × Log :=
  match config.fontSource.load files (Face.ofLanguage job.targetLanguage) with
  | (.error e, log) => (.error (.render e), log)
  | (.ok font, log) =>
    let run := renderDocument job font pages translations sizes
    match run.result with
    | .error e => (.error (.render e), log ++ run.log)
    | .ok counted =>
      (.ok (counted.map fun count => (run.state, ⟨pages.length, count⟩)), log ++ run.log)

/-- What is reported when a job begins. -/
def jobLog (job : Job) (pages : Nat) : Log :=
  let language := (languageName? job.targetLanguage).getD job.targetLanguage
  Log.debug s!"Extracted {pages} pages from source document" ++
    Log.info s!"{job.provider.displayName} - {job.model} -> {language}"

/-- Translates a document and renders the result. -/
def convert (config : Config) (transport : Transport σ) (files : Files) (request : Request)
    (source : Pdf.Document) (state : σ) : Conversion σ (Checked (Pdf.Output × Summary)) :=
  let resolving := Job.resolveLog config.llm request
  match Job.resolve config.llm request with
  | .error e => { result := .error (.translation e), log := resolving, state }
  | .ok job =>
    let (pages, extracting) := source.extractPages
    let run := job.translate transport pages state
    let log := resolving ++ extracting ++ jobLog job pages.length ++ run.log
    match run.result with
    | .error e => { result := .error (.translation e), log, state := run.state }
    | .ok translations =>
      let (result, composing) := config.compose files job pages translations source.pageSizes
      { result, log := log ++ composing, state := run.state }

/-- The document that a file holds. -/
def loadDocument (library : Pdf.Library) (files : Files) (path : String) :
    Except RenderError Pdf.Document :=
  match files.read path with
  | .error e => .error (.pdf s!"Failed to load {path}: {e.message}")
  | .ok content =>
    match library.read content.data.toList with
    | .error fault => .error (.pdf s!"Failed to load {path}: {fault}")
    | .ok doc => .ok doc

/-- Makes the directory that a path lies in, if it names one. -/
def makeParent (files : Files) (path : String) : Except AppError Unit × Files :=
  match Path.parent? path.toList with
  | none | some [] => (.ok (), files)
  | some parent =>
    let (made, files) := files.makeDirectories (String.ofList parent)
    (made.mapError fun e => .file e.message, files)

/-- Writes an output document to a file, and what is reported about it. -/
def saveDocument (library : Pdf.Library) (files : Files) (path : String) (output : Pdf.Output) :
    Except AppError Files × Log :=
  let file := output.serialize library
  match files.write path ⟨file.bytes.toArray⟩ with
  | .error e => (.error (.render (.pdf s!"Failed to write {path}: {e.message}")), file.log)
  | .ok files => (.ok files, file.log ++ Log.debug s!"Saved {output.pageCount} pages to {path}")

/-- Stores an output document in a file, in a directory that is made if need be. -/
def store (library : Pdf.Library) (files : Files) (path : String) (output : Pdf.Output)
    (summary : Summary) : Stored :=
  match makeParent files path with
  | (.error e, files) => { result := .error e, log := [], files }
  | (.ok (), files) =>
    match saveDocument library files path output with
    | (.error e, log) => { result := .error e, log, files }
    | (.ok files, log) =>
      let told := s!"Success: {path} ({summary.sourcePages} pages -> {summary.outputPages} pages)"
      { result := .ok (), log := log ++ Log.timed told .clock, files }

/-- Translates a file into another file. -/
def convertFile (config : Config) (library : Pdf.Library) (transport : Transport σ) (files : Files)
    (request : Request) (input output : String) (state : σ) : FileConversion σ :=
  if !files.isFile input then
    { result := .error (.file s!"Input file does not exist: {input}"), log := [], state, files }
  else
    match loadDocument library files input with
    | .error e => { result := .error (.render e), log := [], state, files }
    | .ok source =>
      let run := config.convert transport files request source state
      match run.result with
      | .error e => { result := .error e, log := run.log, state := run.state, files }
      | .ok (.error panic) =>
        { result := .ok (.error panic), log := run.log, state := run.state, files }
      | .ok (.ok (document, summary)) =>
        let stored := store library files output document summary
        { result := stored.result.map fun () => .ok summary
          log := run.log ++ stored.log
          state := run.state
          files := stored.files }

end Config

end Folio
