import Folio.CommandLine.Arguments
import Folio.Log
import Folio.Provider
import Folio.Settings

/-!
# Commands

What the program can be asked to do, as its arguments say it.
-/

set_option autoImplicit false

namespace Folio

namespace CommandLine

/-- The configuration file when none is named. -/
def defaultConfigPath : String := "conf.json"

/-- A translation of one file. -/
structure TranslateOptions where
  input : String
  /-- The output; by default it lies beside the input. -/
  output : Option String
  request : Request
  configPath : String
  /-- The fonts of this run, in place of those of the configuration. -/
  fontDirectory : Option String
  logLevel : Option Level

/-- A command. -/
inductive Command where
  | help
  | version
  | completions (shell : String)
  /-- Writes a configuration file; one that is there is kept unless it is forced. -/
  | initConfig (path : String) (force : Bool)
  | translate (options : TranslateOptions)

/-- The shells that completions can be generated for. -/
def shells : List String := ["bash", "elvish", "fish", "powershell", "zsh"]

/-- Whether a value names a path. -/
def isPath (value : String) : Bool :=
  !value.isEmpty

def configFlag : Flag := { long := "config-path", letter := some 'c', accepts := isPath }

/-- The arguments of a translation. -/
def translateGrammar : Grammar where
  flags := [
    { long := "target-language", letter := some 't' },
    { long := "source-language", letter := some 's' },
    { long := "provider", letter := some 'p', accepts := (Provider.all.map Provider.key).contains },
    { long := "model", letter := some 'm' },
    { long := "prompt" },
    { long := "include-original", takesValue := false },
    { long := "font-size", accepts := fun value => (Binary32.parse? value).isSome },
    { long := "font-dir", accepts := isPath },
    { long := "output", letter := some 'o', accepts := isPath },
    configFlag,
    { long := "log-level", letter := some 'l', accepts := (Level.all.map Level.key).contains }]
  places := [isPath]

/-- The arguments of writing a configuration file. -/
def initConfigGrammar : Grammar where
  flags := [configFlag, { long := "force", letter := some 'f', takesValue := false }]
  places := []

/-- The arguments of generating completions. -/
def completionsGrammar : Grammar where
  flags := []
  places := [shells.contains]

/-- The configuration file that arguments name. -/
def configPath (arguments : Arguments) : String :=
  (arguments.value? "config-path").getD defaultConfigPath

/-- The translation that arguments ask for, if they name its input and its target language. -/
def translateOptions? (arguments : Arguments) : Option TranslateOptions := do
  let input ← arguments.places.head?
  let targetLanguage ← arguments.value? "target-language"
  return {
    input
    output := arguments.value? "output"
    request := {
      targetLanguage
      sourceLanguage := arguments.value? "source-language"
      provider := arguments.value? "provider"
      model := arguments.value? "model"
      customPrompt := arguments.value? "prompt"
      includeOriginalText := arguments.isSet "include-original"
      fontSize := ((arguments.value? "font-size").bind Binary32.parse?).getD defaultFontSize }
    configPath := configPath arguments
    fontDirectory := arguments.value? "font-dir"
    logLevel := (arguments.value? "log-level").bind fun key =>
      Level.all.find? fun level => level.key = key }

/-- The command that arguments are read as, where `build` makes it of them. -/
def build (outcome : Outcome Arguments) (build : Arguments → Option Command) : Option Command :=
  match outcome with
  | .wrong => none
  | .help => some .help
  | .read arguments => build arguments

/-- The names of the commands. -/
def commandNames : List String := ["translate", "completions", "init-config", "help"]

/-- The command that arguments ask for; none if they are wrong. -/
def Command.ofArguments? : List String → Option Command
  | "translate" :: rest =>
    build (translateGrammar.read rest) fun a => (translateOptions? a).map .translate
  | "init-config" :: rest =>
    build (initConfigGrammar.read rest) fun a => some (.initConfig (configPath a) (a.isSet "force"))
  | "completions" :: rest =>
    build (completionsGrammar.read rest) fun a => a.places.head?.map .completions
  | ["help"] => some .help
  | ["help", name] => if commandNames.contains name then some .help else none
  | flag :: _ =>
    match flag.toList with
    | ['-', '-', 'h', 'e', 'l', 'p'] => some .help
    | ['-', '-', 'v', 'e', 'r', 's', 'i', 'o', 'n'] => some .version
    | '-' :: 'h' :: _ => some .help
    | '-' :: 'V' :: _ => some .version
    | _ => none
  | [] => none

end CommandLine

end Folio
