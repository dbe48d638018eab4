import Folio.Proofs.Answers
import Folio.Proofs.Fence
import Folio.Proofs.TranslationRun

/-!
# Faithful translations

Texts go through two encodings, one inside the other, and a fence, and come back as they were: when
every reply holds the texts that `f` gives to the pages of its chunk, the run yields these texts and
nothing for blank pages (`translate_faithful`). How the pages were divided into chunks does not
show.
-/

set_option autoImplicit false

namespace Folio

open Json

/-! ## The envelope -/

namespace Chat

theorem plain_message (message : Message) (depth : Nat) : Plain (depth + 1) message.toJson :=
  plain_ofEntries (by simp [Plain])

theorem plain_envelope (provider : Provider) (content : String) :
    Plain 4 (envelopeAround provider content) := by
  have hmessage (depth : Nat) := plain_message ⟨"assistant", content⟩ depth
  cases provider with
  | ollama => exact plain_ofEntries (by simp [Plain, hmessage 2])
  | openAi =>
    have hchoice : Plain 2 (.ofEntries [("index", .ofNat 0),
        ("message", Message.toJson ⟨"assistant", content⟩), ("finish_reason", .string "stop")]) :=
      plain_ofEntries (by simp [Plain, Value.ofNat, IsWord, hmessage 0])
    exact plain_ofEntries (by simp [Plain, hchoice])

theorem textOf_envelopeAround (provider : Provider) (content : String) :
    textOf provider (envelopeAround provider content) = some content := by
  cases provider with
  | openAi =>
    simp [textOf, envelopeAround, contentOf, member?_ofEntries, Sorted.lookup_cons_ite,
      Message.toJson, Value.array?, Value.string?]
  | ollama =>
    simp [textOf, envelopeAround, contentOf, member?_ofEntries, Sorted.lookup_cons_ite,
      Message.toJson, Value.string?]

/-- The text in an envelope is found. -/
theorem extractText_envelopeAround (provider : Provider) (content : String) :
    extractText provider (envelopeAround provider content).text = .ok content := by
  have hparse := parse_text (by decide) (plain_envelope provider content)
  have henvelope : envelope (envelopeAround provider content).text =
      .ok (envelopeAround provider content) := by
    rw [envelope, hparse]
    cases provider <;> rfl
  simp only [extractText, henvelope, bind, Except.bind, textOf_envelopeAround]

end Chat

/-! ## Keys -/

theorem isBlank_of_isDigit {c : Char} (h : c.isDigit = true) : Text.isBlank c = false := by
  simp only [Char.isDigit, Bool.and_eq_true, decide_eq_true_eq, ge_iff_le, UInt32.le_iff_toNat_le]
    at h
  have hn : 48 ≤ c.toNat ∧ c.toNat ≤ 57 := h
  simp [Text.isBlank, Text.blankRanges, Text.inRanges]
  omega

namespace Reply

theorem tight_toDigits (n : Nat) : Text.Tight (Nat.toDigits 10 n) := by
  have hdigit := fun c => toDigits_isDigit (n := n) (c := c)
  have hne : Nat.toDigits 10 n ≠ [] := Nat.toDigits_ne_nil
  refine ⟨?_, _, _, (List.dropLast_concat_getLast hne).symm,
    isBlank_of_isDigit (hdigit _ (List.getLast_mem hne))⟩
  cases hd : Nat.toDigits 10 n with
  | nil => exact absurd hd hne
  | cons d ds => exact ⟨d, ds, rfl, isBlank_of_isDigit (hdigit d (hd ▸ List.mem_cons_self))⟩

/-- The decimal digits of a page number are read as the key of that page. -/
theorem page?_repr (n : PageNumber) : page? n.toNat.repr = some n := by
  have hread := readDigits_toDigits n.toNat
  rw [page?, Nat.toList_repr, Text.trim_tight (tight_toDigits n.toNat)]
  cases hd : Nat.toDigits 10 n.toNat with
  | nil => exact absurd hd Nat.toDigits_ne_nil
  | cons d ds =>
    have hplus : d ≠ '+' := by
      rintro rfl
      exact absurd (toDigits_isDigit (hd ▸ List.mem_cons_self)) (by decide)
    rw [hd] at hread
    simp [number?, hplus, hread, UInt32.toNat_lt_size]

/-! ## The reply -/

/-- The content holds these texts for the pages of a chunk: some JSON text of the object of them,
bare or fenced. -/
def Conveys (text : Page → String) (chunk : Chunk) (content : String) : Prop :=
  ∃ json, IsText (.ofEntries (keyed text chunk)) json ∧ Wrapped json content.toList

section
variable (text : Page → String) {chunk : Chunk}

/-- Texts under the numbers of pages are the answers for these pages. -/
theorem lookup_answers {page : Page} (hp : page ∈ chunk)
    (hsame : ∀ other ∈ chunk, other.number = page.number → text other = text page) :
    (answers (Sorted.ofList (keyed text chunk))).lookup page.number =
      some (.string (text page)) := by
  have hdenotes (n : PageNumber) : Denotes n.toNat.repr n := page?_eq_some_iff.1 (page?_repr n)
  have hanswered : Answered (Sorted.ofList (keyed text chunk)) page.number := by
    have hkey : page.number.toNat.repr ∈ (keyed text chunk).map Prod.fst :=
      List.mem_map.2 ⟨_, List.mem_map.2 ⟨page, hp, rfl⟩, rfl⟩
    obtain ⟨m, hm, hkey⟩ := List.mem_map.1 (Sorted.mem_keys_ofList.2 hkey)
    exact ⟨m, hm, hkey ▸ hdenotes page.number⟩
  obtain ⟨value, hvalue⟩ := Option.isSome_iff_exists.1 (lookup_answers_isSome_iff.2 hanswered)
  obtain ⟨key, hmem, hkey, -⟩ :=
    (lookup_answers_eq_some_iff (Sorted.ascending_ofList (keyed text chunk))).1 hvalue
  obtain ⟨other, ho, heq⟩ := List.mem_map.1 (Sorted.mem_of_mem_ofList hmem)
  obtain ⟨rfl, rfl⟩ := Prod.mk.inj heq
  rw [hvalue, hsame other ho ((hdenotes other.number).unique hkey)]

variable {text} in
theorem translations_of_conveys {content : String} (h : Conveys text chunk content)
    (hc : chunk.Pairwise (·.number < ·.number)) :
    translations content chunk = .ok (chunk.map fun page => (page.number, text page)) := by
  obtain ⟨json, hjson, hwrapped⟩ := h
  have hclean : cleaned content = String.ofList json := by
    rw [cleaned, clean_wrapped (braced_of_isText hjson) hwrapped]
  have hobject : object content = .ok (Sorted.ofList (keyed text chunk)) := by
    have hparse := parse_of_isText hjson spaces_nil spaces_nil
    rw [List.nil_append, List.append_nil] at hparse
    rw [object, hclean, hparse]
    rfl
  have hlookup {page : Page} (hp : page ∈ chunk) := lookup_answers text hp fun other ho he =>
    congrArg text (List.inj_on_of_nodup_map (Page.nodup_of_ascending hc) ho hp he)
  refine translations_eq_ok_iff.2 ⟨_, hobject, fun page hp => by simp [hlookup hp], ?_⟩
  rw [ofList_map_number hc]
  refine List.map_congr_left fun page hp => ?_
  simp [textIn, hlookup hp, Reply.text]

/-- The message of the user, sent back, holds the texts of the pages themselves. -/
theorem conveys_user (chunk : Chunk) : Conveys Page.text chunk (Prompt.user chunk) := by
  refine ⟨(Prompt.payload chunk).compact, isText_compact (by decide) (plain_keyed _ _), ?_⟩
  have hbare : Wrapped (Prompt.payload chunk).compact
      ([] ++ (Prompt.payload chunk).compact ++ []) := .bare (by decide) (by decide)
  simpa [Prompt.user, Value.text] using hbare

end

end Reply

/-! ## The run -/

/-- These texts for the pages, and nothing for blank ones. -/
def Translations.ofPages (text : Page → String) (pages : List Page) : Translations :=
  ⟨(Page.sort pages).map fun page => (page.number, if page.hasContent then text page else "")⟩

namespace Job

/-- At the place of each chunk there is a reply whose content holds these texts for its pages, in an
envelope of the provider. -/
def Conveyed (job : Job) (text : Page → String) (pages : List Page)
    (replies : List ScriptedReply) : Prop :=
  ∀ (i : Nat) (chunk : Chunk), (job.chunks (Page.sort pages))[i]? = some chunk → ∃ content,
    replies[i]? = some (.body (Chat.envelopeAround job.provider content).text) ∧
      Reply.Conveys text chunk content

/-- At the place of each chunk there is its own message, sent back in an envelope. -/
def Echoed (job : Job) (pages : List Page) (replies : List ScriptedReply) : Prop :=
  ∀ (i : Nat) (chunk : Chunk), (job.chunks (Page.sort pages))[i]? = some chunk →
    replies[i]? = some (.body (Chat.envelopeAround job.provider (Prompt.user chunk)).text)

variable {job : Job} {text : Page → String} {pages : List Page}

theorem verdict_of_conveys {chunk : Chunk} {content : String} (h : Reply.Conveys text chunk content)
    (hc : chunk.Pairwise (·.number < ·.number)) :
    job.verdict chunk (some (.body (Chat.envelopeAround job.provider content).text)) =
      .ok (chunk.map fun page => (page.number, text page)) := by
  simp only [verdict, Script.answer, bind, Except.bind, readAnswer,
    Chat.extractText_envelopeAround, Reply.translations_of_conveys h hc]

/-- What is accepted is what the replies come to. -/
theorem Answered.eq_map {chunks : List Chunk} {replies : List ScriptedReply}
    {accepted : List (List (PageNumber × String))} (h : Answered job chunks replies accepted)
    {entries : Chunk → List (PageNumber × String)}
    (hv : ∀ (i : Nat) (chunk : Chunk), chunks[i]? = some chunk →
      job.verdict chunk replies[i]? = .ok (entries chunk)) : accepted = chunks.map entries := by
  induction h with
  | nil => rfl
  | cons head tail ih =>
    have h0 := hv 0 _ rfl
    rw [← List.head?_eq_getElem?, head] at h0
    rw [List.map_cons, ← Except.ok.inj h0, ih fun i chunk hi => ?_]
    rw [List.getElem?_tail]
    exact hv (i + 1) chunk hi

/-- Blank pages and the others make up all pages. -/
theorem extend_blank (text : Page → String) {sorted : List Page}
    (h : Page.sortDistinct pages = .ok sorted) :
    (blankTranslations sorted).extend ((sorted.filter Page.hasContent).map fun page =>
      (page.number, text page)) = .ofPages text pages := by
  have hsorted := (Page.sortDistinct_eq_ok_iff.1 h).1
  have hblank : ((sorted.filter (!·.hasContent)).map fun page => (page.number, "")) =
      (sorted.filter (!·.hasContent)).map fun page =>
        (page.number, if page.hasContent then text page else "") :=
    List.map_congr_left fun page hp => by simp [by simpa using (List.mem_filter.1 hp).2]
  have hcontent : ((sorted.filter Page.hasContent).map fun page => (page.number, text page)) =
      (sorted.filter Page.hasContent).map fun page =>
        (page.number, if page.hasContent then text page else "") :=
    List.map_congr_left fun page hp => by simp [(List.mem_filter.1 hp).2]
  rw [blankTranslations, Translations.extend_extend, hblank, hcontent, ← List.map_append,
    Translations.extend_empty, Translations.ofPages, ← hsorted]
  refine congrArg Translations.mk (Sorted.ofList_eq_of_perm (List.pairwise_map.2
    (Page.sortDistinct_pairwise h)) ?_)
  exact (List.perm_append_comm.trans (List.filter_append_perm Page.hasContent sorted)).map _

theorem translate_of_conveyed (hz : ∀ page ∈ pages, page.number ≠ 0)
    (hn : (pages.map Page.number).Nodup) {start : Script}
    (h : job.Conveyed text pages start.replies) :
    (job.translate Script.transport pages start).result = .ok (.ofPages text pages) := by
  have hs : Page.sortDistinct pages = .ok (Page.sort pages) :=
    Page.sortDistinct_eq_ok_iff.2 ⟨rfl, hz, hn⟩
  have hplan := planned_chunks job hs
  have hverdict (i : Nat) (chunk : Chunk) (hi : (job.chunks (Page.sort pages))[i]? = some chunk) :
      job.verdict chunk start.replies[i]? =
        .ok (chunk.map fun page => (page.number, text page)) := by
    obtain ⟨content, hr, hconveys⟩ := h i chunk hi
    rw [hr, verdict_of_conveys hconveys (hplan.chunk_ascending (List.mem_of_getElem? hi))]
  simp only [translate, hs, translateSorted]
  rcases translateChunks_cases job (job.chunks (Page.sort pages)).length 0
    (blankTranslations (Page.sort pages)) start (job.chunks (Page.sort pages)) with hrun | hrun
  · obtain ⟨before, chunk, later, accepted, e, hchunks, -, he, -⟩ := hrun
    have hok := hverdict before.length chunk (by simp [hchunks])
    rw [he] at hok
    cases hok
  · obtain ⟨accepted, ha, hr, -⟩ := hrun
    rw [hr, ha.eq_map hverdict, ← List.map_flatten, hplan.complete, extend_blank text hs]

/-- Replies that hold the texts under `f` give these texts, whatever the budget is, and messages
that are sent back give the texts that the pages have. -/
theorem translate_faithful (job : Job) {pages : List Page} (hz : ∀ page ∈ pages, page.number ≠ 0)
    (hn : (pages.map Page.number).Nodup) :
    (∀ (f : PageNumber → String) (start : Script),
      job.Conveyed (fun page => f page.number) pages start.replies →
      (job.translate Script.transport pages start).result =
        .ok (.ofPages (fun page => f page.number) pages)) ∧
    (∀ (f : PageNumber → String) (budget : Nat) (start start' : Script),
      job.Conveyed (fun page => f page.number) pages start.replies →
      Conveyed { job with budget } (fun page => f page.number) pages start'.replies →
      (translate Script.transport { job with budget } pages start').result =
        (job.translate Script.transport pages start).result) ∧
    ∀ start : Script, job.Echoed pages start.replies →
      (job.translate Script.transport pages start).result = .ok (.ofPages Page.text pages) := by
  refine ⟨fun f start h => translate_of_conveyed hz hn h, fun f budget start start' h h' => ?_,
    fun start h => ?_⟩
  · rw [translate_of_conveyed hz hn h, translate_of_conveyed hz hn h']
  · refine translate_of_conveyed hz hn fun i chunk hi => ?_
    exact ⟨_, h i chunk hi, Reply.conveys_user chunk⟩

/-- A chunk answered in a fence with backticks inside, and one answered bare with a quote. -/
theorem translate_faithful_two_chunks :
    let job : Job := {
      provider := .openAi, model := "m", apiKey := none, timeout := 60, temperature := 0
      endpoint := ⟨.openAi, "http://h", ⟨"http".toList, none, .plain [], none, none⟩⟩
      budget := 1, systemPrompt := "", targetLanguage := "fr", sourceLanguage := none
      includeOriginalText := false, fontSize := 12 }
    let pages : List Page := [⟨2, "b"⟩, ⟨1, "a"⟩, ⟨3, " "⟩]
    let reply (content : String) : ScriptedReply :=
      .body (Chat.envelopeAround .openAi content).text
    let start : Script := { replies := [
      reply "```json\n\x7b\"1\":\"```\"\x7d\n```\n", reply " \x7b\"2\":\"\\\"\"\x7d"] }
    (∀ page ∈ pages, page.number ≠ 0) ∧ (pages.map Page.number).Nodup ∧
      (job.translate Script.transport pages start).result =
        .ok ⟨[(1, "```"), (2, "\""), (3, "")]⟩ := by
  intro job pages reply start
  let f (n : PageNumber) : String := if n = 1 then "```" else "\""
  have hz : ∀ page ∈ pages, page.number ≠ 0 := by decide
  have hn : (pages.map Page.number).Nodup := by decide
  have hchunks : job.chunks (Page.sort pages) = [[⟨1, "a"⟩], [⟨2, "b"⟩]] := by decide
  have hfenced : Reply.Conveys (fun page => f page.number) [⟨1, "a"⟩]
      "```json\n\x7b\"1\":\"```\"\x7d\n```\n" := by
    let json := (Value.ofEntries (keyed (fun page => f page.number) [⟨1, "a"⟩])).compact
    have h : Reply.Wrapped json ([] ++ (Reply.fence ++ "json".toList ++
        '\n' :: ([] ++ json ++ ['\n'] ++ Reply.fence)) ++ ['\n']) :=
      .fenced (by decide) (by decide) (by decide) (by decide) (by decide)
    refine ⟨json, isText_compact (by decide) (plain_keyed _ _), ?_⟩
    convert h using 1
    decide
  have hbare : Reply.Conveys (fun page => f page.number) [⟨2, "b"⟩]
      " \x7b\"2\":\"\\\"\"\x7d" := by
    let json := (Value.ofEntries (keyed (fun page => f page.number) [⟨2, "b"⟩])).compact
    have h : Reply.Wrapped json ([' '] ++ json ++ []) := .bare (by decide) (by decide)
    refine ⟨json, isText_compact (by decide) (plain_keyed _ _), ?_⟩
    convert h using 1
    decide
  have hconveyed : job.Conveyed (fun page => f page.number) pages start.replies := by
    intro i chunk hi
    rw [hchunks] at hi
    match i with
    | 0 => cases hi; exact ⟨_, rfl, hfenced⟩
    | 1 => cases hi; exact ⟨_, rfl, hbare⟩
    | _ + 2 => simp at hi
  exact ⟨hz, hn, (translate_faithful job hz hn).1 f start hconveyed⟩

end Job

end Folio
