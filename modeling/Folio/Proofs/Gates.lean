import Folio.Conversion

/-!
# The gates of the settings

Settings decide which wishes of a request count. Requests that differ only where a gate is closed,
or where neither asks for anything, come to the same job (`resolve_congr`), and so to the same run:
the same requests to the provider and the same output document (`convert_gated`).
-/

set_option autoImplicit false

namespace Folio

/-! ## Requests that settings do not tell apart -/

/-- An override that asks for nothing: it is absent, or all of it is blank. -/
def Vacant (override : Option String) : Prop :=
  ∀ text ∈ override, ∀ c ∈ text.toList, Text.isBlank c = true

/-- Overrides that count for the same behind a gate. -/
inductive SameOverride (allowed : Bool) : Option String → Option String → Prop
  | closed {a b : Option String} (gate : allowed = false) : SameOverride allowed a b
  | same (a : Option String) : SameOverride allowed a a
  | vacant {a b : Option String} (left : Vacant a) (right : Vacant b) : SameOverride allowed a b

/-- The requests agree in all that the settings let a request decide. No gate stands before the
source language, which may only be left blank or out. -/
structure Settings.Hides (settings : Settings) (a b : Request) : Prop where
  targetLanguage : a.targetLanguage = b.targetLanguage
  sourceLanguage : SameOverride true a.sourceLanguage b.sourceLanguage
  provider : SameOverride settings.allowProviderOverride a.provider b.provider
  model : SameOverride settings.allowModelOverride a.model b.model
  customPrompt : SameOverride settings.allowCustomPrompt a.customPrompt b.customPrompt
  includeOriginalText : settings.allowOriginalText = false ∨
    a.includeOriginalText = b.includeOriginalText
  fontSize : a.fontSize = b.fontSize

theorem Vacant.bind_nonBlank? {override : Option String} (h : Vacant override) :
    override.bind Text.nonBlank? = none := by
  cases override with
  | none => rfl
  | some text =>
    have hblank : Text.hasContent text = false := by
      rw [Text.hasContent, List.any_eq_false]
      intro c hc
      simp [h text rfl c hc]
    simp [Text.nonBlank?, hblank]

/-- Behind an open gate, the same is left of both overrides. -/
theorem SameOverride.bind_nonBlank? {allowed : Bool} {a b : Option String}
    (h : SameOverride allowed a b) (hopen : allowed = true) :
    a.bind Text.nonBlank? = b.bind Text.nonBlank? := by
  cases h with
  | closed gate => rw [gate] at hopen; cases hopen
  | same => rfl
  | vacant left right => rw [left.bind_nonBlank?, right.bind_nonBlank?]

/-! ## What a job takes from them -/

namespace Job

variable {settings : Settings} {a b : Request}

theorem providerName_of_closed (gate : settings.allowProviderOverride = false)
    (request : Request) : providerName settings request = settings.provider := by
  unfold providerName
  split
  · simp [gate]
  · rfl

theorem providerName_congr
    (h : SameOverride settings.allowProviderOverride a.provider b.provider) :
    providerName settings a = providerName settings b := by
  cases hgate : settings.allowProviderOverride with
  | false => rw [providerName_of_closed hgate, providerName_of_closed hgate]
  | true => rw [providerName, providerName, h.bind_nonBlank? hgate]

theorem chosenModel?_of_closed (gate : settings.allowModelOverride = false) (request : Request) :
    chosenModel? settings request = Text.nonBlank? settings.model := by
  unfold chosenModel?
  split
  · simp [gate]
  · rfl

theorem chosenModel?_congr (h : SameOverride settings.allowModelOverride a.model b.model) :
    chosenModel? settings a = chosenModel? settings b := by
  cases hgate : settings.allowModelOverride with
  | false => rw [chosenModel?_of_closed hgate, chosenModel?_of_closed hgate]
  | true => rw [chosenModel?, chosenModel?, h.bind_nonBlank? hgate]

theorem callerPrompt_congr
    (h : SameOverride settings.allowCustomPrompt a.customPrompt b.customPrompt) :
    callerPrompt settings a = callerPrompt settings b := by
  unfold callerPrompt
  cases hgate : settings.allowCustomPrompt with
  | false => rfl
  | true => rw [h.bind_nonBlank? hgate]

theorem includeOriginalText_congr
    (h : settings.allowOriginalText = false ∨ a.includeOriginalText = b.includeOriginalText) :
    (a.includeOriginalText && settings.allowOriginalText) =
      (b.includeOriginalText && settings.allowOriginalText) := by
  rcases h with hgate | heq
  · simp [hgate]
  · rw [heq]

/-- The same job, or the same error. -/
theorem resolve_congr (h : settings.Hides a b) : resolve settings a = resolve settings b := by
  unfold resolve
  rw [h.targetLanguage, h.fontSize, providerName_congr h.provider, chosenModel?_congr h.model,
    callerPrompt_congr h.customPrompt, h.sourceLanguage.bind_nonBlank? rfl,
    includeOriginalText_congr h.includeOriginalText]

theorem resolveLog_congr (h : settings.Hides a b) :
    resolveLog settings a = resolveLog settings b := by
  unfold resolveLog
  rw [h.targetLanguage, providerName_congr h.provider]

end Job

/-! ## Runs -/

namespace Config

/-- Behind closed gates, and for blank overrides behind any gate, nothing tells two requests apart:
not the job or the error that they come to, and not the run, whatever it sends documents with. Its
state holds all that was sent, and its result is the output document. -/
theorem convert_gated {settings : Settings} {a b : Request} (h : settings.Hides a b) :
    Job.resolve settings a = Job.resolve settings b ∧
      ∀ {σ : Type} (config : Config) (transport : Transport σ) (files : Files)
        (source : Pdf.Document) (state : σ),
        { config with llm := settings }.convert transport files a source state =
          { config with llm := settings }.convert transport files b source state := by
  have hjob : Job.resolve settings a = Job.resolve settings b := Job.resolve_congr h
  have hlog : Job.resolveLog settings a = Job.resolveLog settings b := Job.resolveLog_congr h
  refine ⟨hjob, ?_⟩
  intro σ config transport files source state
  unfold convert
  rw [hjob, hlog]

/-- With all gates closed, a request that asks for everything comes to the job of one that asks for
nothing. -/
theorem convert_gated_closed :
    let settings : Settings := { enabled := true, model := "m", allowOriginalText := false }
    let greedy : Request := {
      targetLanguage := "fr", sourceLanguage := some " \t", provider := some "ollama"
      model := some "other", customPrompt := some "Be brief.", includeOriginalText := true }
    let modest : Request := { targetLanguage := "fr" }
    settings.Hides greedy modest ∧ (Job.resolve settings modest).isOk ∧
      Job.resolve settings greedy = Job.resolve settings modest := by
  intro settings greedy modest
  have hblank : Vacant (some " \t") := by
    intro text htext c hc
    cases htext
    have hcases : c = ' ' ∨ c = '\t' := by simpa using hc
    rcases hcases with rfl | rfl
    · rfl
    · rfl
  have h : settings.Hides greedy modest :=
    ⟨rfl, .vacant hblank nofun, .closed rfl, .closed rfl, .closed rfl, .inl rfl, rfl⟩
  exact ⟨h, by decide +kernel, (convert_gated h).1⟩

end Config

end Folio
