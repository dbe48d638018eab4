import Folio.Endpoint
import Folio.Layout.FontSize
import Folio.Prompt
import Folio.Settings

/-!
# Jobs

A job is what settings and a request come to: everything that is needed to run it, trimmed,
defaulted and checked. Whatever is wrong with the two is found here, before anything is sent.
-/

set_option autoImplicit false

namespace Folio

/-- A job that can run. -/
structure Job where
  provider : Provider
  model : String
  endpoint : Endpoint
  apiKey : Option String
  /-- How long a request may take, in seconds. -/
  timeout : Nat
  temperature : Float32
  /-- The character budget of a chunk. -/
  budget : Nat
  systemPrompt : String
  targetLanguage : String
  sourceLanguage : Option String
  includeOriginalText : Bool
  fontSize : Float32
deriving DecidableEq

namespace Job

/-- The name of the provider that settings and a request choose. -/
def providerName (settings : Settings) (request : Request) : String :=
  match request.provider.bind Text.nonBlank? with
  | some requested => if settings.allowProviderOverride then requested else settings.provider
  | none => settings.provider

/-- The model that settings and a request choose, if they name one. -/
def chosenModel? (settings : Settings) (request : Request) : Option String :=
  match request.model.bind Text.nonBlank? with
  | some requested =>
    if settings.allowModelOverride then some requested else Text.nonBlank? settings.model
  | none => Text.nonBlank? settings.model

/-- The budget of a chunk that settings come to. -/
def chunkBudget (settings : Settings) : Nat :=
  if settings.maxChunkCharacters ≤ 0 then defaultBudget else settings.maxChunkCharacters.toNat

/-- The instructions of the caller, where they are allowed. -/
def callerPrompt (settings : Settings) (request : Request) : Option String :=
  if settings.allowCustomPrompt then request.customPrompt.bind Text.nonBlank? else none

/-- The job that settings and a request come to. -/
def resolve (settings : Settings) (request : Request) : Except TranslationError Job := do
  if !settings.supportsTranslation then
    throw (.configuration ("LLM translation is disabled. Enable llm in settings and add " ++
      "'translation' to supported_functions."))
  let some targetLanguage := Text.nonBlank? request.targetLanguage
    | throw (.configuration "Target language is required.")
  let provider := Provider.ofKey (providerName settings request)
  let some model := chosenModel? settings request
    | throw (.configuration "No translation model configured. Update llm.model.")
  let endpoint ← Endpoint.resolve provider settings.baseUrl
  let sourceLanguage := request.sourceLanguage.bind Text.nonBlank?
  return {
    provider, model, endpoint, targetLanguage, sourceLanguage
    apiKey := Text.nonBlank? settings.apiKey
    timeout := max settings.requestTimeoutSeconds minTimeout
    temperature := settings.temperature.getD defaultTemperature
    budget := chunkBudget settings
    systemPrompt := Prompt.system sourceLanguage targetLanguage
      (Text.nonBlank? settings.defaultPrompt) (callerPrompt settings request)
    includeOriginalText := request.includeOriginalText && settings.allowOriginalText
    fontSize := sanitizeFontSize request.fontSize }

/-- What is reported while a job is resolved: an unknown name of a provider, if the resolution comes
to look at it. -/
def resolveLog (settings : Settings) (request : Request) : Log :=
  if settings.supportsTranslation && Text.hasContent request.targetLanguage then
    Provider.ofKeyLog (providerName settings request)
  else []

end Job

end Folio
