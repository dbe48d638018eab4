import Folio.Json.Printer
import Folio.Page
import Folio.Text.Split

/-!
# Prompts

The system prompt is a fixed template with the two languages filled in, followed by the instructions
of the deployment and of the caller. The user message is the JSON object of the pages' texts under
their numbers.
-/

set_option autoImplicit false

namespace Folio.Prompt

/-- The template of the system prompt. -/
def template : String :=
  "You are a professional translation assistant. " ++
  "Translate the provided PDF text from \x7bsource_language\x7d into \x7btarget_language\x7d. " ++
  "Preserve headings, numbering, and paragraph structure. " ++
  "Respond with a JSON object whose keys are the page numbers and whose values are only the " ++
  "translated text. Do not include explanations or additional commentary."

/-- What stands for the source language when none is given. -/
def unknownSource : String := "its original language"

/-- The template with the languages filled in, the source language first. -/
def render (source target : String) : String :=
  Text.replaced (Text.replaced template "\x7bsource_language\x7d" source)
    "\x7btarget_language\x7d" target

/-- Adds an instruction to a prompt unless it is blank. -/
def append (prompt : String) (extra : Option String) : String :=
  match extra.bind Text.nonBlank? with
  | some extra => prompt ++ " " ++ extra
  | none => prompt

/-- The system prompt of a job. -/
def system (source : Option String) (target : String) (deployment caller : Option String) :
    String :=
  let source := (source.bind Text.nonBlank?).getD unknownSource
  append (append (render source (Text.trimmed target)) deployment) caller

/-- The entries of the user message. -/
def payload (pages : List Page) : Json.Value :=
  .ofEntries (pages.map fun page => (page.number.toNat.repr, .string page.text))

/-- The user message for the pages of a chunk. -/
def user (pages : List Page) : String :=
  (payload pages).text

end Folio.Prompt
