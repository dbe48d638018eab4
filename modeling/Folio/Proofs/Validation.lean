import Folio.Config
import Folio.Job
import Folio.Proofs.Extension

/-!
# What validation promises

Validation reads the base address alone, a job reads it with the chat path of its provider behind it.
Where the base is still an address with a path behind it, a valid configuration resolves to a job for
every request that names a target language and has a model to use (`resolve_of_validate`). A control
at the end of the base is passed over by validation, and belongs to the host of a job
(`resolve_control`).
-/

set_option autoImplicit false

namespace Folio

/-- What validation finds in a configuration that is switched on. -/
theorem Config.validate_spec {config : Config} {files : Files}
    (h : config.validate files = .ok ()) (henabled : config.llm.enabled = true) :
    (Text.hasContent config.llm.model = true ∨ config.llm.allowModelOverride = true) ∧
      ∀ base ∈ Text.nonBlank? config.llm.baseUrl, ∃ url, Url.parse base = .ok url := by
  simp only [Config.validate, henabled, bind, Except.bind, throw, throwThe, MonadExceptOf.throw,
    pure, Except.pure, if_true] at h
  constructor
  · cases hmodel : Text.hasContent config.llm.model with
    | true => exact .inl rfl
    | false =>
      cases hallowed : config.llm.allowModelOverride with
      | true => exact .inr rfl
      | false =>
        simp only [hmodel, hallowed, Bool.not_false, Bool.and_self, if_true] at h
        repeat' split at h
        all_goals cases h
  · intro base hbase
    cases hparse : Url.parse base with
    | ok url => exact ⟨url, rfl⟩
    | error fault =>
      simp only [Option.mem_def.1 hbase, hparse] at h
      repeat' split at h
      all_goals cases h

namespace Job

/-- A request finds a model: the configured one or its own. -/
theorem chosenModel?_isSome {settings : Settings} {request : Request}
    (hallowed : Text.hasContent settings.model = true ∨ settings.allowModelOverride = true)
    (hmodel : Text.hasContent settings.model = true ∨
      ∃ model ∈ request.model, Text.hasContent model = true) :
    ∃ model, chosenModel? settings request = some model := by
  have hconfigured (h : Text.hasContent settings.model = true) :
      Text.nonBlank? settings.model = some (Text.trimmed settings.model) := if_pos h
  unfold chosenModel?
  cases hrequested : request.model.bind Text.nonBlank? with
  | none =>
    rcases hmodel with hmodel | ⟨model, hmem, hcontent⟩
    · exact ⟨_, hconfigured hmodel⟩
    · rw [Option.mem_def.1 hmem] at hrequested
      simp [Text.nonBlank?, hcontent] at hrequested
  | some requested =>
    by_cases hallow : settings.allowModelOverride = true
    · exact ⟨requested, if_pos hallow⟩
    · exact ⟨_, (if_neg hallow).trans (hconfigured (hallowed.resolve_right hallow))⟩

end Job

namespace Endpoint

theorem resolve_isOk {provider : Provider} {configured : String} :
    (∃ endpoint, resolve provider configured = .ok endpoint) ↔
      ∃ url, Url.parse (baseFor provider configured ++ provider.chatPath) = .ok url := by
  unfold resolve
  cases hparse : Url.parse (baseFor provider configured ++ provider.chatPath) with
  | error fault => simp [hparse]
  | ok url => simp [hparse]

theorem resolve_extensible (provider : Provider) {configured : String}
    (hbase : Url.Extensible (Text.trim configured.toList))
    (h : ∀ base ∈ Text.nonBlank? configured, ∃ url, Url.parse base = .ok url) :
    ∃ endpoint, resolve provider configured = .ok endpoint := by
  rw [resolve_isOk]
  cases hcontent : Text.hasContent configured with
  | false =>
    have hdefault : baseFor provider configured = provider.defaultBaseUrl := by
      rw [baseFor, Text.nonBlank?, if_neg (by simp [hcontent])]
      cases provider with
      | openAi => decide
      | ollama => decide
    rw [hdefault]
    cases provider with
    | openAi => exact ⟨⟨"https".toList, some ⟨[], [], .domain "api.openai.com".toList, none⟩,
        .rooted ["v1".toList, "chat".toList, "completions".toList], none, none⟩, by decide +kernel⟩
    | ollama => exact ⟨⟨"http".toList, some ⟨[], [], .domain "localhost".toList, some 11434⟩,
        .rooted ["api".toList, "chat".toList], none, none⟩, by decide +kernel⟩
  | true =>
    obtain ⟨url, hurl⟩ := h (Text.trimmed configured) (if_pos hcontent)
    rw [Url.parse, Text.trimmed, String.toList_ofList] at hurl
    have hchat := Url.parseChars_chat provider hbase ⟨url, hurl⟩
    rw [Url.parse, String.toList_append, baseFor_content provider hcontent,
      ← provider.written_chatSegments]
    exact hchat

end Endpoint

namespace Job

/-- A configuration that was found valid and is switched on resolves every request for a language,
if there is a model and the address stays one with a path behind it. -/
theorem resolve_of_validate (config : Config) (files : Files) (request : Request)
    (hsupports : config.llm.supportsTranslation = true)
    (hvalid : config.validate files = .ok ())
    (htarget : Text.hasContent request.targetLanguage = true)
    (hmodel : Text.hasContent config.llm.model = true ∨
      ∃ model ∈ request.model, Text.hasContent model = true)
    (hbase : Url.Extensible (Text.trim config.llm.baseUrl.toList)) :
    ∃ job, resolve config.llm request = .ok job := by
  have henabled : config.llm.enabled = true := (Bool.and_eq_true_iff.1 hsupports).1
  obtain ⟨hallowed, hurl⟩ := Config.validate_spec hvalid henabled
  obtain ⟨model, hchosen⟩ := chosenModel?_isSome hallowed hmodel
  obtain ⟨endpoint, hendpoint⟩ := Endpoint.resolve_extensible
    (Provider.ofKey (providerName config.llm request)) hbase hurl
  have hlanguage : Text.nonBlank? request.targetLanguage =
      some (Text.trimmed request.targetLanguage) := if_pos htarget
  simp only [resolve, hsupports, hlanguage, hchosen, hendpoint, Bool.not_true, Bool.false_eq_true,
    if_false]
  exact ⟨_, rfl⟩

/-- The model is that of the request, and the address ends in a query and a fragment. -/
theorem resolve_of_validate_requested :
    ∃ job, resolve
      { enabled := true, allowModelOverride := true, baseUrl := " http://gpu-box:11434/?a#b " }
      { targetLanguage := "fr", model := some "gemma" } = .ok job :=
  resolve_of_validate
    ⟨{ enabled := true, allowModelOverride := true, baseUrl := " http://gpu-box:11434/?a#b " },
      .info, none⟩
    Files.empty { targetLanguage := "fr", model := some "gemma" } (by decide +kernel)
    (by decide +kernel) (by decide +kernel) (.inr ⟨"gemma", rfl, by decide +kernel⟩)
    (by decide +kernel)

/-- A control character at the end of an address is dropped, unless a path stands behind it. -/
theorem resolve_control :
    let config : Config := { llm := { enabled := true, model := "m", baseUrl := "http://h\x01" } }
    config.llm.supportsTranslation = true ∧ config.validate Files.empty = .ok () ∧
      resolve config.llm { targetLanguage := "fr" } = .error (.configuration
        "Invalid base URL 'http://h\x01': invalid international domain name") := by
  refine ⟨by decide +kernel, by decide +kernel, by decide +kernel⟩

end Job

end Folio
