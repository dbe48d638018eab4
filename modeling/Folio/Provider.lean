import Folio.Log
import Folio.Text.Blank
import Folio.Text.Lowercase

/-!
# Providers

The two kinds of service that a job can talk to, and the names by which settings and requests refer
to them.
-/

set_option autoImplicit false

namespace Folio

/-- A kind of chat service. -/
inductive Provider where
  /-- Chat completions as many services and servers offer them. -/
  | openAi
  /-- The chat interface of a local Ollama server. -/
  | ollama
deriving DecidableEq, Repr

namespace Provider

def all : List Provider := [.openAi, .ollama]

/-- The name that settings and requests use. -/
def key : Provider → String
  | .openAi => "openai"
  | .ollama => "ollama"

/-- The name that is shown. -/
def displayName : Provider → String
  | .openAi => "OpenAI-compatible"
  | .ollama => "Ollama"

/-- The address that is asked when none is configured. -/
def defaultBaseUrl : Provider → String
  | .openAi => "https://api.openai.com/v1"
  | .ollama => "http://localhost:11434"

/-- The path of the chat interface below the base address. -/
def chatPath : Provider → String
  | .openAi => "/chat/completions"
  | .ollama => "/api/chat"

/-- The provider of a name; case and blanks around it do not count. -/
def ofKey? (value : String) : Option Provider :=
  let key := String.ofList (Text.lowercase (Text.trim value.toList))
  if key = "openai" then some .openAi
  else if key = "ollama" then some .ollama
  else none

/-- The provider of a name, where blank and unknown names mean the first kind. -/
def ofKey (value : String) : Provider :=
  (ofKey? value).getD .openAi

/-- What is reported when a name is looked up: a name that is not blank and not known. -/
def ofKeyLog (value : String) : Log :=
  if Text.hasContent value && (ofKey? value).isNone then
    Log.warn s!"Unknown provider '{Text.trimmed value}', using the OpenAI-compatible protocol"
  else []

end Provider

end Folio
