import Folio.Config
import Folio.Proofs.Files
import Folio.Proofs.Json.Numbers
import Mathlib.Tactic.Common

/-!
# Configuration files keep every setting

A configuration that was saved is loaded as it was (`load_save`): each member that is written sets
its field to the value it had, and no other. A configuration that was loaded, from whatever text,
is one that can be saved so (`load_fits`).
-/

set_option autoImplicit false

namespace Folio

open Json

/-! ## Settings -/

namespace Settings

/-- The integers of settings are in the ranges of their types. -/
structure Fits (s : Settings) : Prop where
  budget_low : -0x8000000000000000 ≤ s.maxChunkCharacters
  budget_high : s.maxChunkCharacters ≤ 0x7FFFFFFFFFFFFFFF
  timeout : s.requestTimeoutSeconds ≤ 0xFFFFFFFFFFFFFFFF

/-- The members of settings: what each of them sets, and the text of its value. -/
def members (s : Settings) : List ((String × (Settings → Settings)) × List Char) := [
  (("enabled", fun r => { r with enabled := s.enabled }), Config.boolText s.enabled),
  (("supported_functions", fun r => { r with supportedFunctions := s.supportedFunctions }),
    block 2 '[' ']' (s.supportedFunctions.map stringText)),
  (("provider", fun r => { r with provider := s.provider }), stringText s.provider),
  (("model", fun r => { r with model := s.model }), stringText s.model),
  (("allow_provider_override",
      fun r => { r with allowProviderOverride := s.allowProviderOverride }),
    Config.boolText s.allowProviderOverride),
  (("allow_model_override", fun r => { r with allowModelOverride := s.allowModelOverride }),
    Config.boolText s.allowModelOverride),
  (("allow_custom_prompt", fun r => { r with allowCustomPrompt := s.allowCustomPrompt }),
    Config.boolText s.allowCustomPrompt),
  (("allow_original_text", fun r => { r with allowOriginalText := s.allowOriginalText }),
    Config.boolText s.allowOriginalText),
  (("max_chunk_characters", fun r => { r with maxChunkCharacters := s.maxChunkCharacters }),
    integerText s.maxChunkCharacters),
  (("request_timeout_seconds",
      fun r => { r with requestTimeoutSeconds := s.requestTimeoutSeconds }),
    integerText s.requestTimeoutSeconds),
  (("temperature", fun r => { r with temperature := s.temperature }),
    (s.temperature.map float32Text).getD "null".toList),
  (("default_prompt", fun r => { r with defaultPrompt := s.defaultPrompt }),
    stringText s.defaultPrompt),
  (("api_key", fun r => { r with apiKey := s.apiKey }), stringText s.apiKey),
  (("base_url", fun r => { r with baseUrl := s.baseUrl }), stringText s.baseUrl)]

theorem members_texts (s : Settings) :
    (s.members.map fun m => memberText m.1.1 m.2) = Config.settingsTexts s := rfl

/-- The members set every field. -/
theorem setAll_members (s : Settings) : setAll record.initial (s.members.map Prod.fst) = s := rfl

theorem optional_record : ∀ field ∈ record.fields, field.required = false := by
  simp [record, Field.optional]

theorem decodes_temperature {temperature : Option Float32} (h : ∀ t ∈ temperature, ReadsBack t) :
    Decodes (.optional .float32) temperature
      ((temperature.map float32Text).getD "null".toList) := by
  cases temperature with
  | none => exact decodes_none .float32
  | some t =>
    obtain ⟨ws, c, cs, htext, hws, hc, hread⟩ := decodes_float32 (h t rfl)
    have hnull : c ≠ 'n' := by
      rintro rfl
      simp at hc
    rw [Option.map_some, Option.getD_some, htext]
    exact (decodes_some hread (digit_not_space hc) hnull).spaces hws

theorem setsField_members {s : Settings} (hfits : s.Fits)
    (htemperature : ∀ t ∈ s.temperature, ReadsBack t) :
    ∀ m ∈ s.members, SetsField record m.1 m.2 := by
  simp only [members, List.forall_mem_cons]
  refine ⟨?_, ?_, ?_, ?_, ?_, ?_, ?_, ?_, ?_, ?_, ?_, ?_, ?_, ?_, by simp⟩
  · exact setsField_optional rfl (decodes_bool s.enabled) rfl
  · exact setsField_optional rfl (decodes_strings 2 s.supportedFunctions) rfl
  · exact setsField_optional rfl (decodes_string s.provider) rfl
  · exact setsField_optional rfl (decodes_string s.model) rfl
  · exact setsField_optional rfl (decodes_bool s.allowProviderOverride) rfl
  · exact setsField_optional rfl (decodes_bool s.allowModelOverride) rfl
  · exact setsField_optional rfl (decodes_bool s.allowCustomPrompt) rfl
  · exact setsField_optional rfl (decodes_bool s.allowOriginalText) rfl
  · exact setsField_optional rfl (decodes_int64 hfits.budget_low hfits.budget_high) rfl
  · exact setsField_optional rfl (decodes_nat64 hfits.timeout) rfl
  · exact setsField_optional rfl (decodes_temperature htemperature) rfl
  · exact setsField_optional rfl (decodes_string s.defaultPrompt) rfl
  · exact setsField_optional rfl (decodes_string s.apiKey) rfl
  · exact setsField_optional rfl (decodes_string s.baseUrl) rfl

theorem decodes_settings (level : Nat) {s : Settings} (hfits : s.Fits)
    (htemperature : ∀ t ∈ s.temperature, ReadsBack t) :
    Decodes decoder s (block level '\x7b' '\x7d' (Config.settingsTexts s)) := by
  have hkeys : (s.members.map fun m => m.1.1).Nodup := by
    simp only [members, List.map_cons, List.map_nil]
    decide
  have hdecodes :=
    decodes_members optional_record level (setsField_members hfits htemperature) hkeys
  rwa [setAll_members, members_texts] at hdecodes

/-! ### What is loaded -/

theorem yields_record_fits : Yields decoder Fits := by
  refine yields_record ?_ ⟨by decide, by decide, by decide⟩
  simp only [record, List.forall_mem_cons, Field.optional]
  refine ⟨?_, ?_, ?_, ?_, ?_, ?_, ?_, ?_, ?budget, ?timeout, ?_, ?_, ?_, ?_, by simp⟩
  case budget => exact yields_int64.map fun n hn s h => ⟨hn.1, hn.2, h.timeout⟩
  case timeout => exact yields_nat64.map fun n hn s h => ⟨h.budget_low, h.budget_high, hn⟩
  all_goals exact yields_untouched _ fun _ _ h => ⟨h.budget_low, h.budget_high, h.timeout⟩

end Settings

/-! ## Configurations -/

namespace Config

def members (config : Config) : List ((String × (Config → Config)) × List Char) :=
  let directory := match config.fontDirectory with
    | some directory =>
      [(("font_directory", fun c : Config => { c with fontDirectory := some directory }),
        stringText directory)]
    | none => []
  [(("llm", fun c => { c with llm := config.llm }),
      block 1 '\x7b' '\x7d' (settingsTexts config.llm)),
    (("log_level", fun c => { c with logLevel := config.logLevel }),
      stringText config.logLevel.key)] ++ directory

theorem members_text (config : Config) :
    String.ofList (block 0 '\x7b' '\x7d' (config.members.map fun m => memberText m.1.1 m.2)) =
      config.text := by
  obtain ⟨llm, logLevel, _ | directory⟩ := config
  · rfl
  · rfl

theorem setAll_members (config : Config) :
    setAll record.initial (config.members.map Prod.fst) = config := by
  obtain ⟨llm, logLevel, _ | directory⟩ := config
  · rfl
  · rfl

theorem optional_record : ∀ field ∈ record.fields, field.required = false := by
  simp [record, Field.optional]

theorem decodes_level (level : Level) :
    Decodes (.variant (Level.all.map fun level => (level.key, level))) level
      (stringText level.key) := by
  have hlookup : (Level.all.map fun level => (level.key, level)).lookup level.key = some level := by
    cases level <;> rfl
  exact decodes_variant hlookup (writtenString_stringText level.key)

theorem decodes_directory (directory : String) :
    Decodes (.optional (.stringAs "path string")) (some directory) (stringText directory) := by
  have hread := decodes_stringAs "path string" (writtenString_stringText directory)
  exact decodes_some hread rfl (by decide)

theorem setsField_members {config : Config} (hfits : config.llm.Fits)
    (htemperature : ∀ t ∈ config.llm.temperature, ReadsBack t) :
    ∀ m ∈ config.members, SetsField record m.1 m.2 := by
  have hllm : SetsField record ("llm", fun c => { c with llm := config.llm })
      (block 1 '\x7b' '\x7d' (settingsTexts config.llm)) :=
    setsField_optional rfl (Settings.decodes_settings 1 hfits htemperature) rfl
  have hlevel : SetsField record ("log_level", fun c => { c with logLevel := config.logLevel })
      (stringText config.logLevel.key) :=
    setsField_optional rfl (decodes_level config.logLevel) rfl
  cases hdirectory : config.fontDirectory with
  | none => simpa [members, hdirectory] using ⟨hllm, hlevel⟩
  | some directory =>
    have hfonts : SetsField record
        ("font_directory", fun c => { c with fontDirectory := some directory })
        (stringText directory) :=
      setsField_optional rfl (decodes_directory directory) rfl
    simpa [members, hdirectory] using ⟨hllm, hlevel, hfonts⟩

theorem parse_text {config : Config} (hfits : config.llm.Fits)
    (htemperature : ∀ t ∈ config.llm.temperature, ReadsBack t) :
    parse config.text = .ok config := by
  have hkeys : (config.members.map fun m => m.1.1).Nodup := by
    cases hdirectory : config.fontDirectory <;> simp [members, hdirectory]
  have hdecodes :=
    decodes_members optional_record 0 (setsField_members hfits htemperature) hkeys
  rw [setAll_members] at hdecodes
  rw [← members_text, parse, Cursor.ofStream, String.toList_ofList]
  exact hdecodes.readAll _ _

/-! ### Files -/

theorem yields_record_fits : Yields decoder fun config => config.llm.Fits := by
  refine yields_record ?_ ⟨by decide, by decide, by decide⟩
  simp only [record, List.forall_mem_cons, Field.optional]
  refine ⟨?llm, ?_, ?_, by simp⟩
  case llm => exact Settings.yields_record_fits.map fun s hs config _ => hs
  all_goals exact yields_untouched _ fun _ _ h => h

theorem load_eq_ok {files : Files} {path : String} {config : Config}
    (h : load files path = .ok config) :
    ∃ content, files.read path = .ok content ∧ parseContent content = .ok config := by
  unfold load at h
  simp only at h
  split at h
  · cases h
  · cases h
  · rename_i content hread
    split at h
    · cases h
    · rename_i parsed hparse
      cases h
      exact ⟨content, hread, hparse⟩

theorem save_eq_ok {config : Config} {files after : Files} {path : String}
    (h : config.save files path = .ok after) :
    files.write path config.text.toUTF8 = .ok after := by
  unfold save at h
  split at h
  · rename_i written hwrite
    cases h
    exact hwrite
  · cases h

/-- The settings that are loaded are in the ranges of their types, whatever is in the file. -/
theorem load_fits {files : Files} {path : String} {config : Config}
    (h : load files path = .ok config) : config.llm.Fits := by
  obtain ⟨content, -, hparse⟩ := load_eq_ok h
  unfold parseContent at hparse
  split at hparse
  · exact Decoder.readAll_yields yields_record_fits hparse
  · exact Decoder.readAll_yields yields_record_fits hparse

theorem fromUTF8?_toUTF8 (text : String) : String.fromUTF8? text.toUTF8 = some text :=
  dif_pos text.isValidUTF8

theorem load_save {config : Config} (hfits : config.llm.Fits)
    (htemperature : ∀ t ∈ config.llm.temperature, ReadsBack t) {files after : Files} {path : String}
    (h : config.save files path = .ok after) : load after path = .ok config := by
  have hread := Files.read_write (save_eq_ok h)
  have hparse : parseContent config.text.toUTF8 = .ok config := by
    rw [parseContent, fromUTF8?_toUTF8]
    exact parse_text hfits htemperature
  unfold load
  simp only [hread, hparse]

/-- What was saved can be saved again in its place, and that changes nothing. -/
theorem save_save {config : Config} {files after : Files} {path : String}
    (h : config.save files path = .ok after) : config.save after path = .ok after := by
  have hwrite := save_eq_ok h
  have hagain := (Files.write_write hwrite config.text.toUTF8).trans hwrite
  unfold save
  simp only [hagain]

/-- A configuration is loaded as it was saved. What is saved after it was loaded from some file is
loaded as the same again, and saving that again changes no file. -/
theorem save_round_trips :
    (∀ (config : Config) (files after : Files) (path : String), config.llm.Fits →
      (∀ t ∈ config.llm.temperature, ReadsBack t) →
      config.save files path = .ok after → load after path = .ok config) ∧
    (∀ (config : Config) (source : Files) (origin : String) (files after : Files) (path : String),
      load source origin = .ok config → (∀ t ∈ config.llm.temperature, ReadsBack t) →
      config.save files path = .ok after →
      ∃ again, load after path = .ok again ∧ again.text = config.text ∧
        again.save after path = .ok after) := by
  constructor
  · intro config files after path hfits htemperature hsave
    exact load_save hfits htemperature hsave
  · intro config source origin files after path hload htemperature hsave
    exact ⟨config, load_save (load_fits hload) htemperature hsave, rfl, save_save hsave⟩

/-- A configuration that leaves no setting at its default. -/
def everythingSet : Config where
  llm := {
    enabled := true
    supportedFunctions := ["translation", "r\u00e9sum\u00e9 \"x\"\n"]
    provider := "openai\t"
    model := "gpt-4o"
    allowProviderOverride := true
    allowModelOverride := true
    allowCustomPrompt := true
    allowOriginalText := false
    maxChunkCharacters := -0x8000000000000000
    requestTimeoutSeconds := 0xFFFFFFFFFFFFFFFF
    temperature := some 0.5
    defaultPrompt := "\u0001"
    apiKey := "sk-1"
    baseUrl := "https://host/v1" }
  logLevel := .trace
  fontDirectory := some "/fonts"

/-- A file with few of the members, and with some that are not known. -/
def partialFile : Files :=
  Files.empty.add "partial.json"
    "\x7b \"extra\": [1],\n\"llm\": \x7b\"temperature\":5e-1,\"x\":null\x7d\x7d".toUTF8

/-- A configuration in which nothing is as it is by default, and one that was loaded from a file
with few members. -/
theorem save_round_trips_everything :
    (∃ after, everythingSet.save .empty "set.json" = .ok after ∧
      load after "set.json" = .ok everythingSet) ∧
    ∃ loaded saved again, load partialFile "partial.json" = .ok loaded ∧
      loaded.save partialFile "full.json" = .ok saved ∧ load saved "full.json" = .ok again ∧
      again.text = loaded.text ∧ again.save saved "full.json" = .ok saved := by
  have hhalf : ReadsBack 0.5 := ⟨⟨1, 3⟩, by decide +kernel⟩
  constructor
  · have hsave : everythingSet.save .empty "set.json" =
        .ok (Files.empty.put ["set.json"] (.file everythingSet.text.toUTF8)) := rfl
    have hfits : everythingSet.llm.Fits := ⟨by decide, by decide, by decide⟩
    have htemperature : ∀ t ∈ everythingSet.llm.temperature, ReadsBack t := by
      rintro t ⟨⟩
      exact hhalf
    exact ⟨_, hsave, save_round_trips.1 _ _ _ _ hfits htemperature hsave⟩
  · have hload : load partialFile "partial.json" = .ok { llm := { temperature := some 0.5 } } := by
      decide +kernel
    have hsave : save { llm := { temperature := some 0.5 } } partialFile "full.json" =
        .ok (partialFile.put ["full.json"]
          (.file (text { llm := { temperature := some 0.5 } }).toUTF8)) := rfl
    have htemperature : ∀ t ∈ some (0.5 : Float32), ReadsBack t := by
      rintro t ⟨⟩
      exact hhalf
    obtain ⟨again, hagain⟩ := save_round_trips.2 _ _ _ _ _ _ hload htemperature hsave
    exact ⟨_, _, again, hload, hsave, hagain⟩

end Config

end Folio
