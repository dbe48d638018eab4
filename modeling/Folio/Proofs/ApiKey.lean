import Folio.Proofs.Fence
import Folio.Proofs.TranslationRun

/-!
# Where the key goes

The key of the settings reaches one header of the requests and nothing else. Two settings that
differ only in it come to the same error or to jobs that differ only in it, and the runs of the two
jobs differ only in the headers of what they send (`resolve_confines_key`).

The step lemma is about one chunk (`translateChunk_withKey`): what its reply comes to does not depend
on the key. The run follows by induction over the chunks.
-/

set_option autoImplicit false

namespace Folio

/-- The same settings with another key. -/
def Settings.withKey (settings : Settings) (key : String) : Settings :=
  { settings with apiKey := key }

/-- The same job under another key. -/
def Job.withKey (job : Job) (key : String) : Job :=
  { job with apiKey := Text.nonBlank? key }

/-- The headers that requests to a provider carry because of a key. -/
def keyHeaders (provider : Provider) (key : String) : List (String × String) :=
  match provider with
  | .ollama => []
  | .openAi =>
    if Text.hasContent key then [("Authorization", "Bearer " ++ Text.trimmed key)] else []

/-- A document with the headers of a key and no others. -/
def Post.underKey (post : Post) (provider : Provider) (key : String) : Post :=
  { post with headers := keyHeaders provider key }

/-- The run of a job under a key, from what does not depend on the key: the documents of the run are
those of its state with the headers of the key. -/
def Run.underKey (run : Run (List Post)) (start : Script) (provider : Provider) (key : String) :
    Run Script :=
  { run with state := start.after (run.state.map (·.underKey provider key)) }

/-- Two runs from one script, each under its key: they differ in the headers of what they sent and
in nothing else. -/
structure SameButKey (provider : Provider) (key other : String) (start : Script)
    (run otherRun : Run Script) : Prop where
  result : otherRun.result = run.result
  progress : otherRun.progress = run.progress
  log : otherRun.log = run.log
  sent : ∃ posts : List Post,
    run.state = start.after (posts.map (·.underKey provider key)) ∧
      otherRun.state = start.after (posts.map (·.underKey provider other))

theorem Run.underKey_sameButKey (run : Run (List Post)) (start : Script) (provider : Provider)
    (key other : String) :
    SameButKey provider key other start (run.underKey start provider key)
      (run.underKey start provider other) :=
  ⟨rfl, rfl, rfl, run.state, rfl, rfl⟩

/-! ## The header -/

theorem Text.nonBlank?_trimmed {text : String} (h : hasContent text = true) :
    nonBlank? (trimmed text) = some (trimmed text) := by
  rw [nonBlank?_eq, trimmed_trimmed, if_neg (hasContent_iff.1 h)]

theorem Chat.authHeaders_nonBlank? (provider : Provider) (key : String) :
    authHeaders provider (Text.nonBlank? key) = keyHeaders provider key := by
  cases provider with
  | ollama => rfl
  | openAi =>
    cases hcontent : Text.hasContent key with
    | true =>
      have hkey : Text.nonBlank? key = some (Text.trimmed key) := if_pos hcontent
      simp only [authHeaders, keyHeaders, hcontent, hkey, Option.bind_some,
        Text.nonBlank?_trimmed hcontent, ↓reduceIte]
    | false =>
      have hkey : Text.nonBlank? key = none := if_neg (by simp [hcontent])
      simp [authHeaders, keyHeaders, hcontent, hkey]

namespace Job

/-! ## Resolution -/

/-- Another key comes to the same job under that key, or to the same error. -/
theorem resolve_withKey (settings : Settings) (key : String) (request : Request) :
    resolve (settings.withKey key) request =
      (resolve settings request).map (·.withKey key) := by
  have hsupports : (settings.withKey key).supportsTranslation = settings.supportsTranslation := rfl
  have hname : providerName (settings.withKey key) request = providerName settings request := rfl
  have hmodel : chosenModel? (settings.withKey key) request = chosenModel? settings request := rfl
  have hbase : (settings.withKey key).baseUrl = settings.baseUrl := rfl
  unfold resolve
  rw [hsupports, hname, hmodel, hbase]
  cases settings.supportsTranslation with
  | false => rfl
  | true =>
    cases Text.nonBlank? request.targetLanguage with
    | none => rfl
    | some targetLanguage =>
      cases chosenModel? settings request with
      | none => rfl
      | some model =>
        cases hendpoint : Endpoint.resolve (.ofKey (providerName settings request))
            settings.baseUrl with
        | error e => simp [hendpoint, bind, Except.bind, Except.map]
        | ok endpoint =>
          simp only [hendpoint, bind, Except.bind, Except.map, pure, Except.pure]
          rfl

/-! ## Runs -/

variable (job : Job)

theorem post_withKey (key : String) (chunk : Chunk) :
    (job.withKey key).post chunk = (job.post chunk).underKey job.provider key := by
  have hheaders : Chat.authHeaders job.provider (Text.nonBlank? key) =
      keyHeaders job.provider key := Chat.authHeaders_nonBlank? job.provider key
  simp only [post, Post.underKey, withKey, hheaders]
  rfl

/-- What is reported about a reply. -/
def verdictLog (chunk : Chunk) (reply : Option ScriptedReply) : Log :=
  match Script.answer (job.post chunk) reply with
  | .error _ => []
  | .ok answer => job.readAnswerLog chunk answer

/-- Under every key a chunk comes to the same, and the same document is sent but for the headers. -/
theorem translateChunk_withKey (key : String) (chunk : Chunk) (start : Script)
    (before : List Post) :
    (job.withKey key).translateChunk Script.transport chunk
        (start.after (before.map (·.underKey job.provider key))) =
      (job.verdict chunk start.replies[before.length]?,
        job.verdictLog chunk start.replies[before.length]?,
        start.after ((before ++ [job.post chunk]).map (·.underKey job.provider key))) := by
  have hreply : (start.after (before.map (·.underKey job.provider key))).replies.head? =
      start.replies[before.length]? := by
    simp [Script.after, List.head?_drop]
  have hanswer : Script.answer ((job.withKey key).post chunk) start.replies[before.length]? =
      Script.answer (job.post chunk) start.replies[before.length]? := by
    rw [post_withKey]
    rcases start.replies[before.length]? with _ | _ | _ | _ <;> rfl
  have hstate : Script.mk (start.after (before.map (·.underKey job.provider key))).replies.tail
        ((start.after (before.map (·.underKey job.provider key))).sent ++
          [(job.withKey key).post chunk]) =
      start.after ((before ++ [job.post chunk]).map (·.underKey job.provider key)) := by
    simp [Script.after, post_withKey]
  simp only [translateChunk, Script.transport, hreply, hanswer, hstate, verdict, verdictLog]
  cases Script.answer (job.post chunk) start.replies[before.length]? with
  | error e => rfl
  | ok answer => rfl

/-- The chunk at which the chunks fail, if one does, is the same under every key. -/
theorem translateChunks_withKey (total index : Nat) (done : Translations) (start : Script)
    (before : List Post) (chunks : List Chunk) :
    ∃ run : Run (List Post), ∀ key,
      (job.withKey key).translateChunks Script.transport total index done
          (start.after (before.map (·.underKey job.provider key))) chunks =
        run.underKey start job.provider key := by
  induction chunks generalizing index done before with
  | nil => exact ⟨⟨.ok done, [], [], before⟩, fun key => rfl⟩
  | cons chunk chunks ih =>
    simp only [translateChunks, translateChunk_withKey]
    cases job.verdict chunk start.replies[before.length]? with
    | error e => exact ⟨⟨.error e, [], _, before ++ [job.post chunk]⟩, fun key => rfl⟩
    | ok entries =>
      obtain ⟨run, hrun⟩ := ih (index + 1) (done.extend entries) (before ++ [job.post chunk])
      let sending := Log.debug
        s!"Sending chunk {index + 1}/{total} with pages {bracketed (Chunk.numbers chunk)}"
      let log := sending ++ job.verdictLog chunk start.replies[before.length]? ++ run.log
      refine ⟨⟨run.result, (index + 1, total) :: run.progress, log, run.state⟩, fun key => ?_⟩
      simp only [hrun]
      rfl

theorem translate_withKey (pages : List Page) (start : Script) :
    ∃ run : Run (List Post), ∀ key,
      (job.withKey key).translate Script.transport pages start =
        run.underKey start job.provider key := by
  unfold translate
  cases Page.sortDistinct pages with
  | error e =>
    refine ⟨⟨.error e, [], [], []⟩, fun key => ?_⟩
    simp [Run.underKey, Script.after]
  | ok sorted =>
    obtain ⟨run, hrun⟩ := job.translateChunks_withKey (job.chunks sorted).length 0
      (blankTranslations sorted) start [] (job.chunks sorted)
    have hstart : start.after [] = start := by simp [Script.after]
    simp only [List.map_nil, hstart] at hrun
    -- the reports at the start and at the end name the provider and the model, which no key changes
    let whole := (job.withKey "").translateSorted Script.transport sorted start
    refine ⟨⟨whole.result, whole.progress, whole.log, run.state⟩, fun key => ?_⟩
    have hchunks (key : String) : (job.withKey key).chunks sorted = job.chunks sorted := rfl
    simp only [whole, translateSorted, hchunks, hrun]
    rfl

/-- Two settings that differ only in the key come to the same error, or to jobs that differ only in
the key. The runs of such jobs have the same result and report the same, and what they send has the
same addresses, bodies and times. Its headers are those of the key: none for a local server, and for
chat completions one, unless the key is blank. -/
theorem resolve_confines_key (settings : Settings) (key other : String) (request : Request) :
    (∃ e, resolve (settings.withKey key) request = .error e ∧
        resolve (settings.withKey other) request = .error e) ∨
      ∃ job : Job, resolve (settings.withKey key) request = .ok (job.withKey key) ∧
        resolve (settings.withKey other) request = .ok (job.withKey other) ∧
        ∀ (pages : List Page) (start : Script),
          SameButKey job.provider key other start
            ((job.withKey key).translate Script.transport pages start)
            ((job.withKey other).translate Script.transport pages start) := by
  rw [resolve_withKey, resolve_withKey]
  cases resolve settings request with
  | error e => exact .inl ⟨e, rfl, rfl⟩
  | ok job =>
    refine .inr ⟨job, rfl, rfl, ?_⟩
    intro pages start
    obtain ⟨run, hrun⟩ := job.translate_withKey pages start
    rw [hrun, hrun]
    exact run.underKey_sameButKey start job.provider key other

end Job

end Folio
