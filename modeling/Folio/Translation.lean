import Folio.Job
import Folio.Reply
import Folio.Translations
import Folio.Transport

/-!
# Translating pages

Pages are sorted and checked, blank pages are answered at once, and the others are packed into
chunks that are sent one after the other. The first chunk that fails ends the run.
-/

set_option autoImplicit false

namespace Folio

/-- What a run over pages came to. -/
structure Run (σ : Type) where
  result : Except TranslationError Translations
  /-- The calls of the progress callback: chunks done and chunks in all. -/
  progress : List (Nat × Nat)
  log : Log
  /-- The state that the transport is left in. -/
  state : σ

namespace Job

variable {σ : Type}

/-- The messages that are sent for a chunk. -/
def messages (job : Job) (chunk : Chunk) : List Chat.Message :=
  [.system job.systemPrompt, .user (Prompt.user chunk)]

/-- The document that is sent for a chunk. -/
def post (job : Job) (chunk : Chunk) : Post where
  url := job.endpoint.url
  headers := Chat.authHeaders job.provider job.apiKey
  body := Chat.body job.provider job.model (job.messages chunk) job.temperature
  timeout := job.timeout

/-- The translations of a chunk that an answer holds. -/
def readAnswer (job : Job) (chunk : Chunk) (answer : String) :
    Except TranslationError (List (PageNumber × String)) := do
  Reply.translations (← Chat.extractText job.provider answer) chunk

/-- What is reported while an answer is read. -/
def readAnswerLog (job : Job) (chunk : Chunk) (answer : String) : Log :=
  match Chat.extractText job.provider answer with
  | .ok content => Reply.log content chunk
  | .error _ => []

/-- Sends a chunk and reads the answer. -/
def translateChunk (transport : Transport σ) (job : Job) (chunk : Chunk) (state : σ) :
    Except TranslationError (List (PageNumber × String)) × Log × σ :=
  let delivery := transport.send (job.post chunk) state
  match delivery.answer with
  | .error e => (.error e, delivery.log, delivery.state)
  | .ok answer =>
    (job.readAnswer chunk answer, delivery.log ++ job.readAnswerLog chunk answer, delivery.state)

/-- Sends chunks one after the other, of which `index` were sent before, and adds their translations
to those already there. -/
def translateChunks (transport : Transport σ) (job : Job) (total : Nat) (index : Nat)
    (done : Translations) (state : σ) : List Chunk → Run σ
  | [] => { result := .ok done, progress := [], log := [], state }
  | chunk :: chunks =>
    let sending := Log.debug
      s!"Sending chunk {index + 1}/{total} with pages {bracketed (Chunk.numbers chunk)}"
    let (outcome, log, state) := job.translateChunk transport chunk state
    match outcome with
    | .error e =>
      { result := .error e
        progress := []
        log := sending ++ log ++ Log.error s!"Chunk {index + 1}/{total} failed: {e.message}"
        state }
    | .ok entries =>
      let rest := translateChunks transport job total (index + 1) (done.extend entries) state chunks
      { rest with
        progress := (index + 1, total) :: rest.progress
        log := sending ++ log ++ rest.log }

/-- The translations of blank pages. -/
def blankTranslations (pages : List Page) : Translations :=
  Translations.empty.extend ((pages.filter (!·.hasContent)).map fun page => (page.number, ""))

/-- The chunks that are sent for sorted pages. -/
def chunks (job : Job) (pages : List Page) : List Chunk :=
  Chunk.pack job.budget (pages.filter Page.hasContent)

/-- Translates sorted pages. -/
def translateSorted (transport : Transport σ) (job : Job) (pages : List Page) (state : σ) : Run σ :=
  let blank := blankTranslations pages
  let content := pages.filter Page.hasContent
  let chunks := job.chunks pages
  let start := Chunk.packLog job.budget content ++ Log.info
    (s!"Translating {content.length + blank.size} pages ({blank.size} blank) in " ++
      s!"{chunks.length} chunks with {job.provider.key} model {job.model}")
  let run := job.translateChunks transport chunks.length 0 blank state chunks
  let finish := match run.result with
    | .ok translations => Log.timed s!"Translated {translations.size} pages" .seconds
    | .error _ => []
  { run with
    progress := (0, chunks.length) :: run.progress
    log := start ++ run.log ++ finish }

/-- Translates pages, in whatever order they are given. -/
def translate (transport : Transport σ) (job : Job) (pages : List Page) (state : σ) : Run σ :=
  match Page.sortDistinct pages with
  | .error e => { result := .error e, progress := [], log := [], state }
  | .ok pages => job.translateSorted transport pages state

end Job

end Folio
