import Folio.CommandLine.Command
import Folio.Conversion

/-!
# The command line

What the program does with its arguments: the lines that it reports, what it prints, the files
afterwards, and the code that it exits with.
-/

set_option autoImplicit false

namespace Folio.CommandLine

/-- How a run of the program ends. -/
structure Exit (σ : Type) where
  code : Nat
  /-- The lines that are reported. -/
  log : Log := []
  /-- What ended the run, if it failed. -/
  failure : Option Failure := none
  /-- What ended the program, if it panicked. -/
  panic : Option Panic := none
  /-- What is printed. -/
  output : String := ""
  files : Files
  state : σ

/-- The code for arguments that are wrong. -/
def usageCode : Nat := 2

/-- The code of a program that panicked. -/
def panicCode : Nat := 101

/-- The level of the lines that are reported unless arguments or configuration say otherwise. -/
def defaultLevel : Level := .info

def name : String := "pdf-translate"

def versionText : String := name ++ " 1.0.0\n"

/-- What is printed when help is asked for. -/
def helpText : String :=
  "Translates PDF documents with a language model.\n\n" ++
  "Usage:\n" ++
  s!"  {name} translate <INPUT> -t <LANGUAGE> [OPTIONS]\n" ++
  s!"  {name} init-config [-c <PATH>] [--force]\n" ++
  s!"  {name} completions <SHELL>\n\n" ++
  "Options of translate:\n" ++
  "  -t, --target-language <TAG>   language to translate into\n" ++
  "  -s, --source-language <TAG>   language to translate from\n" ++
  "  -p, --provider <NAME>         openai or ollama\n" ++
  "  -m, --model <NAME>            model to ask\n" ++
  "      --prompt <TEXT>           further instructions\n" ++
  "      --include-original        render the original text too\n" ++
  "      --font-size <POINTS>      size of the output text\n" ++
  "      --font-dir <DIR>          directory with the fonts\n" ++
  "  -o, --output <PATH>           output file\n" ++
  "  -c, --config-path <PATH>      configuration file\n" ++
  "  -l, --log-level <LEVEL>       error, warn, info, debug or trace\n"

/-- A script that completes the names of the commands in a shell. -/
def completionText (shell : String) : String :=
  let words := " ".intercalate commandNames
  match shell with
  | "bash" => s!"complete -W \"{words}\" {name}\n"
  | "zsh" => s!"#compdef {name}\ncompadd {words}\n"
  | "fish" => s!"complete -c {name} -f -a \"{words}\"\n"
  | "elvish" => s!"set edit:completion:arg-completer[{name}] = \x7b|@_| put {words} \x7d\n"
  | _ => s!"Register-ArgumentCompleter -Native -CommandName {name} -ScriptBlock \x7b" ++
    s!" -split '{words}' \x7d\n"

/-- Writes a configuration file with the defaults. -/
def initConfig {σ : Type} (path : String) (force : Bool) (files : Files) (state : σ) : Exit σ :=
  if files.exists? path && !force then
    { code := 0, files, state
      log := Log.warn s!"Config file already exists at '{path}' (use --force to overwrite)" }
  else
    match Config.save {} files path with
    | .error failure => { code := 1, failure := some failure, files, state }
    | .ok files => { code := 0, files, state, log := Log.info s!"Wrote default config to '{path}'" }

/-- The configuration of a translation, and what is reported when there is none. -/
def loadConfig (options : TranslateOptions) (files : Files) : Except Failure Config × Log :=
  let path := options.configPath
  let loaded : Except Failure Config × Log :=
    if files.exists? path then (Config.load files path, [])
    else (.ok {}, Log.warn (s!"Config file not found at '{path}', using defaults. " ++
      s!"Run '{name} init-config' to create one."))
  (loaded.1.map fun config =>
    { config with fontDirectory := options.fontDirectory.or config.fontDirectory }, loaded.2)

/-- Where the output of a translation goes. -/
def outputPath (options : TranslateOptions) : String :=
  options.output.getD (String.ofList (Path.translated options.input.toList))

/-- Translates a file. Until the configuration is known to be valid, the level of the reports is
that of the arguments. -/
def translate {σ : Type} (options : TranslateOptions) (library : Pdf.Library)
    (transport : Transport σ) (files : Files) (state : σ) : Exit σ :=
  let early := options.logLevel.getD defaultLevel
  let (config, log) := loadConfig options files
  let log := log.upTo early
  match config with
  | .error failure => { code := 1, log, failure := some failure, files, state }
  | .ok config =>
    match config.validate files with
    | .error failure =>
      { code := 1, log, files, state
        failure := some (failure.within "Configuration validation failed") }
    | .ok () =>
      let run := config.convertFile library transport files options.request options.input
        (outputPath options) state
      let log := log ++ run.log.upTo (options.logLevel.getD config.logLevel)
      match run.result with
      | .error e =>
        { code := 1, log, failure := some e.toFailure, files := run.files, state := run.state }
      | .ok (.error panic) =>
        { code := panicCode, log, panic := some panic, files := run.files, state := run.state }
      | .ok (.ok _) => { code := 0, log, files := run.files, state := run.state }

/-- Runs the program. -/
def run {σ : Type} (arguments : List String) (library : Pdf.Library) (transport : Transport σ)
    (files : Files) (state : σ) : Exit σ :=
  match Command.ofArguments? arguments with
  | none => { code := usageCode, files, state }
  | some .help => { code := 0, output := helpText, files, state }
  | some .version => { code := 0, output := versionText, files, state }
  | some (.completions shell) => { code := 0, output := completionText shell, files, state }
  | some (.initConfig path force) => initConfig path force files state
  | some (.translate options) => translate options library transport files state

/-! ### Lines -/

/-- The lines of a text that follows a mark; all but the first line are moved in as far. -/
def marked (mark indent : String) (text : String) : List String :=
  match Text.splitWhere (· == '\n') text.toList with
  | [] => [mark]
  | first :: rest => (mark ++ String.ofList first) ::
      rest.map fun line => indent ++ String.ofList line

/-- The lines that tell why a run failed: the message, and the causes behind it. -/
def failureLines (failure : Failure) : List String :=
  let message := marked "Error: " "" failure.message
  match failure.causes with
  | [] => message
  | [cause] => message ++ ["", "Caused by:"] ++ marked "    " "    " cause
  | causes => message ++ ["", "Caused by:"] ++
      (causes.mapIdx fun i cause => marked s!"    {i}: " "       " cause).flatten

end Folio.CommandLine
