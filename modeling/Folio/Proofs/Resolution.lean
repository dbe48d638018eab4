import Folio.Job
import Folio.Proofs.ContentWidth
import Folio.Proofs.Splitting

/-!
# Resolving a job

What is needed for a job is asked for in a fixed order, and the first thing that is missing is the
error (`Resolved`). A job that comes out is normalised: its texts are trimmed and say something, its
numbers are in range. Blanks around the texts of settings and requests make no difference
(`resolve_normalized`).
-/

set_option autoImplicit false

namespace Folio

/-! ## Texts -/

namespace Text

/-- A text that says something and has no blanks at its ends. -/
def Neat (text : String) : Prop := text ≠ "" ∧ trimmed text = text

/-- A text with blanks put at its ends. -/
def Surrounded (text surrounded : String) : Prop :=
  ∃ before after, Blanks before ∧ Blanks after ∧
    surrounded = String.ofList before ++ text ++ String.ofList after

theorem nonBlank?_eq_none_iff {text : String} : nonBlank? text = none ↔ trimmed text = "" := by
  rw [nonBlank?_eq]
  split
  · simp [*]
  · simp [*]

theorem neat_of_nonBlank? {text neat : String} (h : nonBlank? text = some neat) : Neat neat := by
  rw [nonBlank?_eq] at h
  split at h
  · cases h
  · rename_i hsome
    cases h
    exact ⟨hsome, trimmed_trimmed text⟩

theorem neat_of_bind_nonBlank? {text : Option String} {neat : String}
    (h : text.bind nonBlank? = some neat) : Neat neat := by
  obtain ⟨text, -, htext⟩ := Option.bind_eq_some_iff.1 h
  exact neat_of_nonBlank? htext

theorem Surrounded.refl (text : String) : Surrounded text text :=
  ⟨[], [], by decide, by decide, by simp⟩

section
variable {text surrounded : String} (h : Surrounded text surrounded)

include h

theorem Surrounded.trim_eq : trim surrounded.toList = trim text.toList := by
  obtain ⟨before, after, hbefore, hafter, rfl⟩ := h
  simpa using trim_padded hbefore hafter text.toList

theorem Surrounded.trimmed_eq : trimmed surrounded = trimmed text := by
  rw [trimmed, trimmed, h.trim_eq]

theorem Surrounded.nonBlank?_eq : nonBlank? surrounded = nonBlank? text := by
  rw [Text.nonBlank?_eq, Text.nonBlank?_eq, h.trimmed_eq]

end

theorem map_trimmed_of_forall₂ {texts surrounded : List String}
    (h : List.Forall₂ Surrounded texts surrounded) :
    surrounded.map trimmed = texts.map trimmed := by
  induction h with
  | nil => rfl
  | cons htext _ ih => rw [List.map_cons, List.map_cons, htext.trimmed_eq, ih]

theorem bind_nonBlank?_of_rel {text surrounded : Option String}
    (h : Option.Rel Surrounded text surrounded) :
    surrounded.bind nonBlank? = text.bind nonBlank? := by
  cases h with
  | none => rfl
  | some h => exact h.nonBlank?_eq

end Text

/-- Settings with blanks put at the ends of their texts. -/
structure Settings.Surrounded (a b : Settings) : Prop where
  enabled : b.enabled = a.enabled
  supportedFunctions : List.Forall₂ Text.Surrounded a.supportedFunctions b.supportedFunctions
  provider : Text.Surrounded a.provider b.provider
  model : Text.Surrounded a.model b.model
  allowProviderOverride : b.allowProviderOverride = a.allowProviderOverride
  allowModelOverride : b.allowModelOverride = a.allowModelOverride
  allowCustomPrompt : b.allowCustomPrompt = a.allowCustomPrompt
  allowOriginalText : b.allowOriginalText = a.allowOriginalText
  maxChunkCharacters : b.maxChunkCharacters = a.maxChunkCharacters
  requestTimeoutSeconds : b.requestTimeoutSeconds = a.requestTimeoutSeconds
  temperature : b.temperature = a.temperature
  defaultPrompt : Text.Surrounded a.defaultPrompt b.defaultPrompt
  apiKey : Text.Surrounded a.apiKey b.apiKey
  baseUrl : Text.Surrounded a.baseUrl b.baseUrl

/-- A request with blanks put at the ends of its texts. -/
structure Request.Surrounded (a b : Request) : Prop where
  targetLanguage : Text.Surrounded a.targetLanguage b.targetLanguage
  sourceLanguage : Option.Rel Text.Surrounded a.sourceLanguage b.sourceLanguage
  provider : Option.Rel Text.Surrounded a.provider b.provider
  model : Option.Rel Text.Surrounded a.model b.model
  customPrompt : Option.Rel Text.Surrounded a.customPrompt b.customPrompt
  includeOriginalText : b.includeOriginalText = a.includeOriginalText
  fontSize : b.fontSize = a.fontSize

/-! ## What a job needs -/

/-- The service is switched on, and translation is one of the functions it supports. -/
def Settings.Supports (settings : Settings) : Prop :=
  settings.enabled = true ∧
    ∃ function ∈ settings.supportedFunctions, Text.trimmed function = "translation"

/-- There is a model to use: one that is requested, where that is allowed, or a configured one. -/
def Settings.HasModel (settings : Settings) (request : Request) : Prop :=
  (settings.allowModelOverride = true ∧ ∃ model ∈ request.model, Text.trimmed model ≠ "") ∨
    Text.trimmed settings.model ≠ ""

theorem Endpoint.resolve_error {provider : Provider} {configured : String} {e : TranslationError}
    (h : resolve provider configured = .error e) : ∃ message, e = .configuration message := by
  unfold resolve at h
  cases hparse : Url.parse (baseFor provider configured ++ provider.chatPath) with
  | ok url => simp [hparse] at h
  | error fault =>
    simp only [hparse, Except.error.injEq] at h
    exact ⟨_, h.symm⟩

namespace Job

/-- What holds of the jobs that settings and a request come to. -/
structure Normal (settings : Settings) (request : Request) (job : Job) : Prop where
  model : Text.Neat job.model
  targetLanguage : Text.Neat job.targetLanguage
  sourceLanguage : ∀ language ∈ job.sourceLanguage, Text.Neat language
  apiKey : ∀ key ∈ job.apiKey, Text.Neat key
  timeout : job.timeout = max settings.requestTimeoutSeconds 10
  budget : 1 ≤ job.budget ∧
    (0 < settings.maxChunkCharacters → (job.budget : ℤ) = settings.maxChunkCharacters)
  fontSize : 6 ≤ job.fontSize ∧ job.fontSize ≤ 36 ∧ sanitizeFontSize job.fontSize = job.fontSize
  includeOriginalText : job.includeOriginalText = true ↔
    request.includeOriginalText = true ∧ settings.allowOriginalText = true

/-- What resolution comes to: an error for the first thing that is missing, or a job. -/
inductive Resolved (settings : Settings) (request : Request) :
    Except TranslationError Job → Prop
  | unsupported (missing : ¬ settings.Supports) :
      Resolved settings request
        (.error (.configuration ("LLM translation is disabled. Enable llm in settings and add " ++
          "'translation' to supported_functions.")))
  | withoutTarget (supports : settings.Supports)
      (missing : Text.trimmed request.targetLanguage = "") :
      Resolved settings request (.error (.configuration "Target language is required."))
  | withoutModel (supports : settings.Supports) (target : Text.trimmed request.targetLanguage ≠ "")
      (missing : ¬ settings.HasModel request) :
      Resolved settings request
        (.error (.configuration "No translation model configured. Update llm.model."))
  | withoutEndpoint (supports : settings.Supports)
      (target : Text.trimmed request.targetLanguage ≠ "") (model : settings.HasModel request)
      {message : String}
      (missing : Endpoint.resolve (.ofKey (providerName settings request)) settings.baseUrl =
        .error (.configuration message)) :
      Resolved settings request (.error (.configuration message))
  | complete (supports : settings.Supports) (target : Text.trimmed request.targetLanguage ≠ "")
      (model : settings.HasModel request) {job : Job}
      (provider : job.provider = .ofKey (providerName settings request))
      (endpoint : Endpoint.resolve job.provider settings.baseUrl = .ok job.endpoint)
      (normal : job.Normal settings request) :
      Resolved settings request (.ok job)

variable {settings : Settings} {request : Request}

theorem supportsTranslation_iff : settings.supportsTranslation = true ↔ settings.Supports := by
  simp [Settings.supportsTranslation, Settings.Supports, translationFunction]

theorem chosenModel?_eq_none_iff :
    chosenModel? settings request = none ↔ ¬ settings.HasModel request := by
  have hrequested : request.model.bind Text.nonBlank? = none ↔
      ¬ ∃ model ∈ request.model, Text.trimmed model ≠ "" := by
    simp [Option.bind_eq_none_iff, Text.nonBlank?_eq_none_iff]
  rw [Settings.HasModel, not_or, not_and, ne_eq, not_not, ← hrequested,
    ← Text.nonBlank?_eq_none_iff, chosenModel?]
  cases request.model.bind Text.nonBlank? with
  | none => simp
  | some requested => cases settings.allowModelOverride <;> simp

/-- The model that is chosen is trimmed and says something. -/
theorem neat_of_chosenModel? {model : String} (h : chosenModel? settings request = some model) :
    Text.Neat model := by
  unfold chosenModel? at h
  split at h
  · rename_i requested hrequested
    split at h
    · cases h
      exact Text.neat_of_bind_nonBlank? hrequested
    · exact Text.neat_of_nonBlank? h
  · exact Text.neat_of_nonBlank? h

theorem chunkBudget_spec (settings : Settings) : 1 ≤ chunkBudget settings ∧
    (0 < settings.maxChunkCharacters →
      (chunkBudget settings : ℤ) = settings.maxChunkCharacters) := by
  unfold chunkBudget
  split
  · exact ⟨by decide, fun h => by omega⟩
  · exact ⟨by omega, fun _ => by omega⟩

/-- A font size in range stays as it is. -/
theorem sanitizeFontSize_sanitizeFontSize (requested : Float32) :
    sanitizeFontSize (sanitizeFontSize requested) = sanitizeFontSize requested := by
  rcases sanitizeFontSize_cases requested with h | h | h | ⟨h, -⟩
  · rw [h]; decide
  · rw [h]; decide
  · rw [h]; decide
  · rw [h, h]

theorem sanitizeFontSize_spec (requested : Float32) :
    6 ≤ sanitizeFontSize requested ∧ sanitizeFontSize requested ≤ 36 ∧
      sanitizeFontSize (sanitizeFontSize requested) = sanitizeFontSize requested := by
  obtain ⟨-, hlow, hhigh⟩ := sanitizeFontSize_range requested
  exact ⟨hlow, hhigh, sanitizeFontSize_sanitizeFontSize requested⟩

theorem resolved_resolve (settings : Settings) (request : Request) :
    Resolved settings request (resolve settings request) := by
  cases hsupports : settings.supportsTranslation with
  | false =>
    have hmissing : ¬ settings.Supports := by simp [← supportsTranslation_iff, hsupports]
    simp only [resolve, hsupports, Bool.not_false, if_true]
    exact .unsupported hmissing
  | true =>
    have hsupported := supportsTranslation_iff.1 hsupports
    cases htarget : Text.nonBlank? request.targetLanguage with
    | none =>
      simp only [resolve, hsupports, htarget, Bool.not_true, Bool.false_eq_true, if_false]
      exact .withoutTarget hsupported (Text.nonBlank?_eq_none_iff.1 htarget)
    | some target =>
      have hnamed : Text.trimmed request.targetLanguage ≠ "" := by
        simp [← Text.nonBlank?_eq_none_iff, htarget]
      cases hmodel : chosenModel? settings request with
      | none =>
        simp only [resolve, hsupports, htarget, hmodel, Bool.not_true, Bool.false_eq_true, if_false]
        exact .withoutModel hsupported hnamed (chosenModel?_eq_none_iff.1 hmodel)
      | some model =>
        have hasModel : settings.HasModel request := by
          by_contra hnone
          rw [chosenModel?_eq_none_iff.2 hnone] at hmodel
          cases hmodel
        -- A name for the provider, so that no step looks into how its key is read.
        generalize hprovider : Provider.ofKey (providerName settings request) = provider
        cases hendpoint : Endpoint.resolve provider settings.baseUrl with
        | error e =>
          obtain ⟨message, rfl⟩ := Endpoint.resolve_error hendpoint
          simp only [resolve, hsupports, htarget, hmodel, hprovider, hendpoint, Bool.not_true,
            Bool.false_eq_true, if_false]
          subst hprovider
          exact .withoutEndpoint hsupported hnamed hasModel hendpoint
        | ok endpoint =>
          simp only [resolve, hsupports, htarget, hmodel, hprovider, hendpoint, Bool.not_true,
            Bool.false_eq_true, if_false]
          exact .complete hsupported hnamed hasModel hprovider.symm hendpoint {
            model := neat_of_chosenModel? hmodel
            targetLanguage := Text.neat_of_nonBlank? htarget
            sourceLanguage := fun language hlanguage => Text.neat_of_bind_nonBlank? hlanguage
            apiKey := fun key hkey => Text.neat_of_nonBlank? hkey
            timeout := rfl
            budget := chunkBudget_spec settings
            fontSize := sanitizeFontSize_spec request.fontSize
            includeOriginalText := Bool.and_eq_true_iff }

/-! ## Blanks around texts -/

section
variable {other : Settings} {otherRequest : Request} (h : settings.Surrounded other)
  (hrequest : request.Surrounded otherRequest)

include h

theorem supportsTranslation_surrounded :
    other.supportsTranslation = settings.supportsTranslation := by
  have hany (functions : List String) :
      functions.any (fun f => Text.trimmed f == translationFunction) =
        (functions.map Text.trimmed).any (· == translationFunction) := by
    rw [List.any_map]
    rfl
  rw [Settings.supportsTranslation, Settings.supportsTranslation, h.enabled, hany, hany,
    Text.map_trimmed_of_forall₂ h.supportedFunctions]

include hrequest

theorem ofKey_providerName_surrounded :
    Provider.ofKey (providerName other otherRequest) =
      Provider.ofKey (providerName settings request) := by
  have hconfigured : Provider.ofKey other.provider = Provider.ofKey settings.provider := by
    rw [Provider.ofKey, Provider.ofKey, Provider.ofKey?, Provider.ofKey?, h.provider.trim_eq]
  rw [providerName, providerName, Text.bind_nonBlank?_of_rel hrequest.provider,
    h.allowProviderOverride]
  cases request.provider.bind Text.nonBlank? with
  | none => exact hconfigured
  | some requested =>
    cases settings.allowProviderOverride with
    | true => rfl
    | false => exact hconfigured

theorem chosenModel?_surrounded :
    chosenModel? other otherRequest = chosenModel? settings request := by
  rw [chosenModel?, chosenModel?, Text.bind_nonBlank?_of_rel hrequest.model, h.allowModelOverride,
    h.model.nonBlank?_eq]

/-- The same job, or the same error. -/
theorem resolve_surrounded : resolve other otherRequest = resolve settings request := by
  have hendpoint (provider : Provider) :
      Endpoint.resolve provider other.baseUrl = Endpoint.resolve provider settings.baseUrl := by
    unfold Endpoint.resolve
    rw [Endpoint.baseFor, Endpoint.baseFor, h.baseUrl.nonBlank?_eq]
  have hbudget : chunkBudget other = chunkBudget settings := by
    rw [chunkBudget, chunkBudget, h.maxChunkCharacters]
  have hprompt : callerPrompt other otherRequest = callerPrompt settings request := by
    rw [callerPrompt, callerPrompt, h.allowCustomPrompt,
      Text.bind_nonBlank?_of_rel hrequest.customPrompt]
  simp only [resolve, supportsTranslation_surrounded h, hrequest.targetLanguage.nonBlank?_eq,
    ofKey_providerName_surrounded h hrequest, chosenModel?_surrounded h hrequest, hendpoint,
    Text.bind_nonBlank?_of_rel hrequest.sourceLanguage, h.apiKey.nonBlank?_eq,
    h.requestTimeoutSeconds, h.temperature, hbudget, h.defaultPrompt.nonBlank?_eq, hprompt,
    hrequest.includeOriginalText, h.allowOriginalText, hrequest.fontSize]

end

/-- Settings and a request come to a job exactly if nothing is missing, and else to the error for
the first thing that is. Every job is normalised, and blanks around texts come to the same. -/
theorem resolve_normalized (settings : Settings) (request : Request) :
    ((∃ job, resolve settings request = .ok job) ↔
      settings.Supports ∧ Text.trimmed request.targetLanguage ≠ "" ∧ settings.HasModel request ∧
        ∃ endpoint, Endpoint.resolve (.ofKey (providerName settings request)) settings.baseUrl =
          .ok endpoint) ∧
      Resolved settings request (resolve settings request) ∧
      ∀ (other : Settings) (otherRequest : Request), settings.Surrounded other →
        request.Surrounded otherRequest → resolve other otherRequest = resolve settings request := by
  refine ⟨?_, resolved_resolve settings request, fun _ _ => resolve_surrounded⟩
  have hresolved := resolved_resolve settings request
  constructor
  · rintro ⟨job, hjob⟩
    rw [hjob] at hresolved
    cases hresolved with
    | complete supports target model provider endpoint normal =>
      exact ⟨supports, target, model, _, provider ▸ endpoint⟩
  · rintro ⟨supports, target, model, endpoint, hendpoint⟩
    cases hjob : resolve settings request with
    | ok job => exact ⟨job, rfl⟩
    | error e =>
      rw [hjob] at hresolved
      cases hresolved with
      | unsupported missing => exact absurd supports missing
      | withoutTarget _ missing => exact absurd missing target
      | withoutModel _ _ missing => exact absurd model missing
      | withoutEndpoint _ _ _ missing => cases hendpoint.symm.trans missing

/-- A request for a model of its own, at an address of its own, and the same with blanks around. -/
theorem resolve_normalized_padded :
    let settings : Settings := {
      enabled := true, provider := "ollama", allowModelOverride := true
      maxChunkCharacters := -1, requestTimeoutSeconds := 3, baseUrl := "http://gpu-box:11434" }
    let padded : Settings := {
      settings with
      supportedFunctions := ["\ttranslation"], provider := " ollama\n", apiKey := "  "
      baseUrl := "http://gpu-box:11434 " }
    let request : Request := { targetLanguage := "fr", model := some "gemma" }
    let paddedRequest : Request := { targetLanguage := " fr ", model := some "gemma\t" }
    (∃ job, resolve settings request = .ok job) ∧
      settings.Surrounded padded ∧ request.Surrounded paddedRequest ∧
        resolve padded paddedRequest = resolve settings request := by
  intro settings padded request paddedRequest
  have hsettings : settings.Surrounded padded := {
    enabled := rfl
    supportedFunctions := .cons ⟨['\t'], [], by decide, by decide, by decide⟩ .nil
    provider := ⟨[' '], ['\n'], by decide, by decide, by decide⟩
    model := .refl _
    allowProviderOverride := rfl
    allowModelOverride := rfl
    allowCustomPrompt := rfl
    allowOriginalText := rfl
    maxChunkCharacters := rfl
    requestTimeoutSeconds := rfl
    temperature := rfl
    defaultPrompt := .refl _
    apiKey := ⟨[' '], [' '], by decide, by decide, by decide⟩
    baseUrl := ⟨[], [' '], by decide, by decide, by decide⟩ }
  have hrequest : request.Surrounded paddedRequest := {
    targetLanguage := ⟨[' '], [' '], by decide, by decide, by decide⟩
    sourceLanguage := .none
    provider := .none
    model := .some ⟨[], ['\t'], by decide, by decide, by decide⟩
    customPrompt := .none
    includeOriginalText := rfl
    fontSize := rfl }
  obtain ⟨hcomplete, -, hpadded⟩ := resolve_normalized settings request
  refine ⟨hcomplete.2 ⟨⟨rfl, _, .head _, by decide +kernel⟩, by decide +kernel,
    .inl ⟨rfl, _, rfl, by decide +kernel⟩, ?_⟩, hsettings, hrequest,
    hpadded padded paddedRequest hsettings hrequest⟩
  exact ⟨⟨.ollama, "http://gpu-box:11434", ⟨"http".toList,
    some ⟨[], [], .domain "gpu-box".toList, some 11434⟩, .rooted ["api".toList, "chat".toList],
    none, none⟩⟩, by decide +kernel⟩

end Job

end Folio
