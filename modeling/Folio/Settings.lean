import Folio.Error
import Folio.Json.Decode
import Folio.Layout.FontSize
import Folio.Text.Blank

/-!
# Settings and requests

`Settings` are what a deployment allows and prefers for every job; a `Request` is what the caller of
one job asks for.
-/

set_option autoImplicit false

namespace Folio

open Json

/-- The function that must be supported for a translation. -/
def translationFunction : String := "translation"

/-- The least time that a request is given, in seconds. -/
def minTimeout : Nat := 10

/-- The character budget of a chunk when the configured one is not positive. -/
def defaultBudget : Nat := 4000

/-- The temperature when none is configured. -/
def defaultTemperature : Float32 := 0.2

/-- What a deployment lays down for every job. -/
structure Settings where
  /-- The master switch. -/
  enabled : Bool := false
  supportedFunctions : List String := [translationFunction]
  provider : String := "openai"
  model : String := ""
  allowProviderOverride : Bool := false
  allowModelOverride : Bool := false
  allowCustomPrompt : Bool := false
  /-- Whether output documents may include the original text. -/
  allowOriginalText : Bool := true
  /-- The character budget of a request. -/
  maxChunkCharacters : Int := defaultBudget
  requestTimeoutSeconds : Nat := 120
  temperature : Option Float32 := none
  /-- Instructions that follow every system prompt. -/
  defaultPrompt : String := ""
  apiKey : String := ""
  baseUrl : String := ""
deriving DecidableEq

namespace Settings

/-- Whether the service is switched on and may translate. -/
def supportsTranslation (s : Settings) : Bool :=
  s.enabled && s.supportedFunctions.any fun f => Text.trimmed f == translationFunction

/-- The fields of settings in data. -/
def record : Record Settings where
  name := "LlmSettings"
  initial := {}
  fields := [
    .optional "enabled" .bool fun v s => { s with enabled := v },
    .optional "supported_functions" (.list .string) fun v s => { s with supportedFunctions := v },
    .optional "provider" .string fun v s => { s with provider := v },
    .optional "model" .string fun v s => { s with model := v },
    .optional "allow_provider_override" .bool fun v s => { s with allowProviderOverride := v },
    .optional "allow_model_override" .bool fun v s => { s with allowModelOverride := v },
    .optional "allow_custom_prompt" .bool fun v s => { s with allowCustomPrompt := v },
    .optional "allow_original_text" .bool fun v s => { s with allowOriginalText := v },
    .optional "max_chunk_characters" .int64 fun v s => { s with maxChunkCharacters := v },
    .optional "request_timeout_seconds" .nat64 fun v s => { s with requestTimeoutSeconds := v },
    .optional "temperature" (.optional .float32) fun v s => { s with temperature := v },
    .optional "default_prompt" .string fun v s => { s with defaultPrompt := v },
    .optional "api_key" .string fun v s => { s with apiKey := v },
    .optional "base_url" .string fun v s => { s with baseUrl := v }]

def decoder : Decoder Settings := record.decoder

end Settings

/-- What the caller of a job asks for. -/
structure Request where
  /-- The tag of the target language. -/
  targetLanguage : String
  sourceLanguage : Option String := none
  /-- Another provider than the configured one. -/
  provider : Option String := none
  /-- Another model than the configured one. -/
  model : Option String := none
  /-- Instructions of the caller's own. -/
  customPrompt : Option String := none
  includeOriginalText : Bool := false
  /-- The font size in points. -/
  fontSize : Float32 := defaultFontSize
deriving DecidableEq

namespace Request

/-- The fields of a request in data. -/
def record : Record Request where
  name := "TranslateRequest"
  initial := { targetLanguage := "" }
  fields := [
    .needed "target_language" .string fun v r => { r with targetLanguage := v },
    .optional "source_language" (.optional .string) fun v r => { r with sourceLanguage := v },
    .optional "provider" (.optional .string) fun v r => { r with provider := v },
    .optional "model" (.optional .string) fun v r => { r with model := v },
    .optional "custom_prompt" (.optional .string) fun v r => { r with customPrompt := v },
    .optional "include_original_text" .bool fun v r => { r with includeOriginalText := v },
    .optional "font_size" .float32 fun v r => { r with fontSize := v }]

def decoder : Decoder Request := record.decoder

end Request

end Folio
