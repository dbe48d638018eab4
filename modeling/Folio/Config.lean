import Folio.Files
import Folio.Json.Decode
import Folio.Log
import Folio.Settings
import Folio.Url

/-!
# Configuration files

A configuration is kept as indented JSON. Loading fills in what is left out and passes over what is
not known; validation finds what would make every job fail.
-/

set_option autoImplicit false

namespace Folio

open Json

/-- The configuration of the program. -/
structure Config where
  llm : Settings := {}
  logLevel : Level := .info
  /-- Where the fonts of the languages lie; without it a builtin font is used. -/
  fontDirectory : Option String := none
deriving DecidableEq

namespace Config

/-- The fields of a configuration in data. -/
def record : Record Config where
  name := "Config"
  initial := {}
  fields := [
    .optional "llm" Settings.decoder fun v c => { c with llm := v },
    .optional "log_level" (.variant (Level.all.map fun level => (level.key, level)))
      fun v c => { c with logLevel := v },
    .optional "font_directory" (.optional (.stringAs "path string"))
      fun v c => { c with fontDirectory := v }]

def decoder : Decoder Config := record.decoder

/-! ### Writing -/

def boolText (b : Bool) : List Char :=
  if b then "true".toList else "false".toList

/-- The members of the settings. -/
def settingsTexts (s : Settings) : List (List Char) := [
  memberText "enabled" (boolText s.enabled),
  memberText "supported_functions" (block 2 '[' ']' (s.supportedFunctions.map stringText)),
  memberText "provider" (stringText s.provider),
  memberText "model" (stringText s.model),
  memberText "allow_provider_override" (boolText s.allowProviderOverride),
  memberText "allow_model_override" (boolText s.allowModelOverride),
  memberText "allow_custom_prompt" (boolText s.allowCustomPrompt),
  memberText "allow_original_text" (boolText s.allowOriginalText),
  memberText "max_chunk_characters" (integerText s.maxChunkCharacters),
  memberText "request_timeout_seconds" (integerText s.requestTimeoutSeconds),
  memberText "temperature" ((s.temperature.map float32Text).getD "null".toList),
  memberText "default_prompt" (stringText s.defaultPrompt),
  memberText "api_key" (stringText s.apiKey),
  memberText "base_url" (stringText s.baseUrl)]

/-- The text of a configuration file. -/
def text (config : Config) : String :=
  let directory := match config.fontDirectory with
    | some directory => [memberText "font_directory" (stringText directory)]
    | none => []
  String.ofList (block 0 '\x7b' '\x7d' ([
    memberText "llm" (block 1 '\x7b' '\x7d' (settingsTexts config.llm)),
    memberText "log_level" (stringText config.logLevel.key)] ++ directory))

/-! ### Files -/

/-- The configuration that a text denotes. -/
def parse (text : String) : Except ReadError Config :=
  decoder.readAll (.ofStream text)

/-- The configuration that the content of a file denotes, which need not be text where nothing is
asked for. -/
def parseContent (content : ByteArray) : Except ReadError Config :=
  match String.fromUTF8? content with
  | some text => parse text
  | none => decoder.readAll (.ofBytes content.toList)

/-- Loads a configuration file. -/
def load (files : Files) (path : String) : Except Failure Config :=
  let parsing (cause : String) : Failure :=
    (Failure.of cause).within s!"Failed to parse config file: {path}"
  match files.read path with
  | .error .isDirectory => .error (parsing OsError.isDirectory.message)
  | .error e => .error ((Failure.of e.message).within s!"Failed to open config file: {path}")
  | .ok content =>
    match parseContent content with
    | .error e => .error (parsing e.message)
    | .ok config => .ok config

/-- Writes a configuration file. -/
def save (config : Config) (files : Files) (path : String) : Except Failure Files :=
  match files.write path config.text.toUTF8 with
  | .ok files => .ok files
  | .error e => .error ((Failure.of e.message).within s!"Failed to write config to file: {path}")

/-- Whether a temperature is between 0 and 2. -/
def validTemperature (temperature : Float32) : Bool :=
  0 ≤ temperature && temperature ≤ 2

/-- Looks for what would make every job fail. -/
def validate (config : Config) (files : Files) : Except Failure Unit := do
  if let some directory := config.fontDirectory then
    if !files.isDirectory directory then
      throw (.of s!"font_directory is not a directory: {directory}")
  let s := config.llm
  if s.enabled then
    if !Text.hasContent s.model && !s.allowModelOverride then
      throw (.of "llm.model is required when model overrides are not allowed")
    if let some temperature := s.temperature then
      if !validTemperature temperature then
        throw (.of ("llm.temperature must be between 0.0 and 2.0, got " ++
          Binary32.text temperature))
    if let some base := Text.nonBlank? s.baseUrl then
      if let .error fault := Url.parse base then
        throw ((Failure.of fault.message).within s!"llm.base_url is not a valid URL: {s.baseUrl}")

end Config

end Folio
