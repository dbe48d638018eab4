import Folio.Proofs.Packing
import Folio.Proofs.Reply
import Folio.Proofs.Request

/-!
# The law of a run

What a call of `Job.translate` over a script of replies does is said by `Lawful`: the pages are
refused, or a chunk fails, or all pages are translated. In each case it is fixed what was sent, what
was reported and what comes out. The main theorem is `serve_lawful`, for calls one after the other
that use up one script.
-/

set_option autoImplicit false

namespace Folio

/-! ## Merging -/

namespace Translations

theorem entries_extend (translations : Translations) (entries : List (PageNumber × String)) :
    (translations.extend entries).entries =
      entries.foldl (fun m e => Sorted.insert e.1 e.2 m) translations.entries := by
  unfold extend
  induction entries generalizing translations with
  | nil => rfl
  | cons e entries ih => rw [List.foldl_cons, List.foldl_cons, ih]; rfl

theorem extend_extend (translations : Translations) (a b : List (PageNumber × String)) :
    (translations.extend a).extend b = translations.extend (a ++ b) := by
  simp [extend, List.foldl_append]

theorem extend_empty (entries : List (PageNumber × String)) :
    empty.extend entries = ⟨Sorted.ofList entries⟩ :=
  congrArg Translations.mk (entries_extend empty entries)

variable {pages : List Page} {entries : List (PageNumber × String)}

/-- Where each page has one entry, the keys are the numbers of the pages. -/
theorem keys_extend (hp : pages.Pairwise (·.number < ·.number))
    (h : (entries.map Prod.fst).Perm (pages.map Page.number)) :
    (empty.extend entries).entries.map Prod.fst = pages.map Page.number := by
  have hn : (entries.map Prod.fst).Nodup := h.nodup_iff.2 (Page.nodup_of_ascending hp)
  rw [extend_empty]
  refine (((Sorted.ofList_perm hn).map Prod.fst).trans h).eq_of_pairwise ?_
    (List.pairwise_map.2 (Sorted.ascending_ofList entries)) (List.pairwise_map.2 hp)
  exact fun m n _ _ h1 h2 => absurd (UInt32.lt_trans h1 h2) (UInt32.lt_irrefl m)

/-- Where keys differ, what was put in is found. -/
theorem get?_extend (h : (entries.map Prod.fst).Nodup) {number : PageNumber} {text : String} :
    (empty.extend entries).get? number = some text ↔ (number, text) ∈ entries := by
  rw [get?, extend_empty]
  exact (Sorted.ascending_ofList entries).lookup_eq_some_iff.trans (Sorted.mem_ofList h)

end Translations

/-- The script after documents were sent. -/
def Script.after (script : Script) (posts : List Post) : Script where
  replies := script.replies.drop posts.length
  sent := script.sent ++ posts

namespace Job

/-! ## One chunk -/

/-- What a reply comes to for a chunk. -/
def verdict (job : Job) (chunk : Chunk) (reply : Option ScriptedReply) :
    Except TranslationError (List (PageNumber × String)) := do
  job.readAnswer chunk (← Script.answer (job.post chunk) reply)

/-- The values by page number that the body of a reply holds. -/
def answersIn (job : Job) (body : String) :
    Except TranslationError (List (PageNumber × Json.Value)) := do
  return Reply.answers (← Reply.object (← Chat.extractText job.provider body))

theorem translateChunk_script (job : Job) (chunk : Chunk) (script : Script) :
    ∃ log, job.translateChunk Script.transport chunk script =
      (job.verdict chunk script.replies.head?, log,
        ⟨script.replies.tail, script.sent ++ [job.post chunk]⟩) := by
  simp only [translateChunk, verdict, Script.transport]
  cases Script.answer (job.post chunk) script.replies.head? with
  | error e => exact ⟨_, rfl⟩
  | ok answer => exact ⟨_, rfl⟩

/-- A reply is accepted when its body answers all pages of the chunk. -/
theorem verdict_eq_ok {job : Job} {chunk : Chunk} {reply : Option ScriptedReply}
    {entries : List (PageNumber × String)} (h : job.verdict chunk reply = .ok entries) :
    ∃ body answers, reply = some (.body body) ∧ job.answersIn body = .ok answers ∧
      (∀ page ∈ chunk, (answers.lookup page.number).isSome) ∧
      entries = Sorted.ofList (chunk.map fun page => (page.number, Reply.textIn answers page)) := by
  unfold verdict at h
  cases reply with
  | none => cases h
  | some reply =>
    cases reply with
    | status code body => cases h
    | timeout => cases h
    | body body =>
      simp only [Script.answer, bind, Except.bind, readAnswer] at h
      cases hc : Chat.extractText job.provider body with
      | error e => rw [hc] at h; cases h
      | ok content =>
        rw [hc] at h
        obtain ⟨members, ho, hall, he⟩ := Reply.translations_eq_ok_iff.1 h
        refine ⟨body, _, rfl, ?_, hall, he⟩
        simp only [answersIn, hc, bind, Except.bind, ho, pure, Except.pure]

/-! ## One chunk after the other -/

/-- Each of the chunks is answered by the reply at its place, which is accepted. -/
inductive Answered (job : Job) :
    List Chunk → List ScriptedReply → List (List (PageNumber × String)) → Prop
  | nil (replies : List ScriptedReply) : Answered job [] replies []
  | cons {chunk : Chunk} {chunks : List Chunk} {replies : List ScriptedReply}
      {entries : List (PageNumber × String)} {rest : List (List (PageNumber × String))}
      (head : job.verdict chunk replies.head? = .ok entries)
      (tail : Answered job chunks replies.tail rest) :
      Answered job (chunk :: chunks) replies (entries :: rest)

section
variable {job : Job} {chunks : List Chunk} {replies : List ScriptedReply}
  {accepted : List (List (PageNumber × String))}

theorem Answered.getElem? (h : Answered job chunks replies accepted) {i : Nat} {chunk : Chunk}
    (hi : chunks[i]? = some chunk) :
    ∃ entries ∈ accepted, job.verdict chunk replies[i]? = .ok entries := by
  induction h generalizing i with
  | nil => simp at hi
  | cons head tail ih =>
    cases i with
    | zero =>
      rw [List.getElem?_cons_zero] at hi
      cases hi
      exact ⟨_, List.mem_cons_self, by rwa [← List.head?_eq_getElem?]⟩
    | succ i =>
      rw [List.getElem?_cons_succ] at hi
      obtain ⟨entries, hm, hv⟩ := ih hi
      exact ⟨entries, List.mem_cons_of_mem _ hm, by rwa [List.getElem?_tail] at hv⟩

/-- Accepted replies answer exactly the pages of the chunks, in their order. -/
theorem Answered.keys (h : Answered job chunks replies accepted)
    (hc : chunks.flatten.Pairwise (·.number < ·.number)) :
    accepted.flatten.map Prod.fst = chunks.flatten.map Page.number := by
  induction h with
  | nil => rfl
  | cons head tail ih =>
    rw [List.flatten_cons, List.pairwise_append] at hc
    obtain ⟨body, answers, -, -, -, rfl⟩ := verdict_eq_ok head
    rw [List.flatten_cons, List.map_append, ih hc.2.1, List.flatten_cons, List.map_append,
      Reply.ofList_map_number hc.1, List.map_map]
    rfl

end

/-- Of the chunks either one is the first that fails, and then nothing is sent after it, or all are
accepted and merged. -/
theorem translateChunks_cases (job : Job) (total index : Nat) (done : Translations)
    (script : Script) (chunks : List Chunk) :
    let run := job.translateChunks Script.transport total index done script chunks
    (∃ before chunk later accepted error, chunks = before ++ chunk :: later ∧
      Answered job before script.replies accepted ∧
      job.verdict chunk script.replies[before.length]? = .error error ∧
      run.result = .error error ∧
      run.state = script.after ((before ++ [chunk]).map job.post) ∧
      run.progress = (List.range' (index + 1) before.length).map (·, total)) ∨
    ∃ accepted, Answered job chunks script.replies accepted ∧
      run.result = .ok (done.extend accepted.flatten) ∧
      run.state = script.after (chunks.map job.post) ∧
      run.progress = (List.range' (index + 1) chunks.length).map (·, total) := by
  induction chunks generalizing index done script with
  | nil => exact .inr ⟨[], .nil _, rfl, by simp [translateChunks, Script.after], rfl⟩
  | cons chunk chunks ih =>
    obtain ⟨log, hsend⟩ := translateChunk_script job chunk script
    have hafter (posts : List Post) :
        Script.after ⟨script.replies.tail, script.sent ++ [job.post chunk]⟩ posts =
          script.after (job.post chunk :: posts) := by
      simp [Script.after, List.drop_tail]
    simp only [translateChunks, hsend]
    cases hv : job.verdict chunk script.replies.head? with
    | error e =>
      refine .inl ⟨[], chunk, chunks, [], e, rfl, .nil _, ?_, rfl, ?_, rfl⟩
      · rwa [List.length_nil, ← List.head?_eq_getElem?]
      · simp [Script.after]
    | ok entries =>
      rcases ih (index + 1) (done.extend entries)
        ⟨script.replies.tail, script.sent ++ [job.post chunk]⟩ with h | h
      · obtain ⟨before, failed, later, accepted, e, rfl, ha, he, hr, hs, hp⟩ := h
        refine .inl ⟨chunk :: before, failed, later, entries :: accepted, e, rfl, .cons hv ha,
          by rwa [List.getElem?_tail] at he, hr, hs.trans (hafter _), ?_⟩
        simp [hp, List.range'_succ]
      · obtain ⟨accepted, ha, hr, hs, hp⟩ := h
        refine .inr ⟨entries :: accepted, .cons hv ha, ?_, hs.trans (hafter _), ?_⟩
        · rw [hr, Translations.extend_extend, List.flatten_cons]
        · simp [hp, List.range'_succ]

/-! ## The law -/

/-- What pages come to before anything is sent: those with content, each once and in ascending
order, are divided into chunks. -/
structure Planned (job : Job) (pages sorted : List Page) (chunks : List Chunk) : Prop where
  accepted : Page.sortDistinct pages = .ok sorted
  perm : sorted.Perm pages
  ascending : sorted.Pairwise (·.number < ·.number)
  packed : chunks = Chunk.pack job.budget (sorted.filter Page.hasContent)
  complete : chunks.flatten = sorted.filter Page.hasContent
  inhabited : ∀ chunk ∈ chunks, chunk ≠ []

/-- One document was sent for each of the chunks, in their order, and each used up one reply. -/
def Sent (job : Job) (chunks : List Chunk) (start state : Script) : Prop :=
  ∃ posts, List.Forall₂ job.Asks chunks posts ∧ state = start.after posts

/-- The translations are those of all pages: nothing for a blank page, and for any other page what
the reply to its chunk holds under its number. -/
structure Complete (job : Job) (sorted : List Page) (chunks : List Chunk)
    (replies : List ScriptedReply) (translations : Translations) : Prop where
  keys : translations.entries.map Prod.fst = sorted.map Page.number
  blank : ∀ page ∈ sorted, page.hasContent = false → translations.get? page.number = some ""
  content : ∀ (i : Nat) (chunk : Chunk), chunks[i]? = some chunk → ∀ page ∈ chunk,
    ∃ body answers value, replies[i]? = some (.body body) ∧ job.answersIn body = .ok answers ∧
      answers.lookup page.number = some value ∧
      translations.get? page.number = some (Reply.text value)

/-- What a run over pages does that starts with a script: nothing, if the pages are refused;
otherwise it goes through the chunks up to the first whose reply is not accepted. -/
inductive Lawful (job : Job) (pages : List Page) (start : Script) (run : Run Script) : Prop
  | refused (message : String)
      (fault : Page.sortDistinct pages = .error (.invalidInput message))
      (result : run.result = .error (.invalidInput message))
      (progress : run.progress = [])
      (state : run.state = start)
  | failed (sorted : List Page) (before : List Chunk) (chunk : Chunk) (later : List Chunk)
      (accepted : List (List (PageNumber × String))) (error : TranslationError)
      (planned : Planned job pages sorted (before ++ chunk :: later))
      (answered : Answered job before start.replies accepted)
      (rejected : job.verdict chunk start.replies[before.length]? = .error error)
      (result : run.result = .error error)
      (sent : Sent job (before ++ [chunk]) start run.state)
      (progress : run.progress =
        (List.range (before.length + 1)).map (·, (before ++ chunk :: later).length))
  | completed (sorted : List Page) (chunks : List Chunk)
      (accepted : List (List (PageNumber × String))) (translations : Translations)
      (planned : Planned job pages sorted chunks)
      (answered : Answered job chunks start.replies accepted)
      (result : run.result = .ok translations)
      (complete : Complete job sorted chunks start.replies translations)
      (sent : Sent job chunks start run.state)
      (progress : run.progress = (List.range (chunks.length + 1)).map (·, chunks.length))

section
variable {job : Job} {pages sorted : List Page} {chunks : List Chunk}

theorem planned_chunks (job : Job) (h : Page.sortDistinct pages = .ok sorted) :
    Planned job pages sorted (job.chunks sorted) where
  accepted := h
  perm := (Page.sortDistinct_eq_ok_iff.1 h).1 ▸ Page.sort_perm pages
  ascending := Page.sortDistinct_pairwise h
  packed := rfl
  complete := Chunk.flatten_pack _ _
  inhabited := fun _ => Chunk.ne_nil_of_mem_pack

theorem Planned.content_ascending (h : Planned job pages sorted chunks) :
    chunks.flatten.Pairwise (·.number < ·.number) :=
  h.complete ▸ h.ascending.sublist List.filter_sublist

theorem Planned.chunk_ascending (h : Planned job pages sorted chunks) {chunk : Chunk}
    (hc : chunk ∈ chunks) : chunk.Pairwise (·.number < ·.number) :=
  h.content_ascending.sublist (List.sublist_flatten_of_mem hc)

theorem Planned.sent {sent later : List Chunk} (h : Planned job pages sorted (sent ++ later))
    (start : Script) :
    Sent job sent start (start.after (sent.map job.post)) := by
  refine ⟨_, List.forall₂_map_right_iff.2 (List.forall₂_same.2 fun chunk hc => ?_), rfl⟩
  exact asks_post job (Page.nodup_of_ascending (h.chunk_ascending (List.mem_append_left later hc)))

variable {replies : List ScriptedReply} {accepted : List (List (PageNumber × String))}

/-- The entries of blank pages and of accepted replies are one for each page. -/
theorem Planned.keys_perm (h : Planned job pages sorted chunks)
    (ha : Answered job chunks replies accepted) :
    (((sorted.filter (!·.hasContent)).map fun page => (page.number, "")) ++
      accepted.flatten |>.map Prod.fst).Perm (sorted.map Page.number) := by
  have hblank : (sorted.filter (!·.hasContent)).map (Prod.fst ∘ fun page => (page.number, "")) =
      (sorted.filter (!·.hasContent)).map Page.number := rfl
  rw [List.map_append, ha.keys h.content_ascending, h.complete, List.map_map, hblank,
    ← List.map_append]
  refine (List.perm_append_comm.trans ?_).map Page.number
  exact List.filter_append_perm Page.hasContent sorted

/-- The blank pages and all that was accepted make up the translations of all pages. -/
theorem Planned.complete_extend (h : Planned job pages sorted chunks)
    (ha : Answered job chunks replies accepted) :
    Complete job sorted chunks replies ((blankTranslations sorted).extend accepted.flatten) := by
  have hperm := h.keys_perm ha
  have hn := hperm.nodup_iff.2 (Page.nodup_of_ascending h.ascending)
  rw [blankTranslations, Translations.extend_extend]
  refine ⟨Translations.keys_extend h.ascending hperm, fun page hp hb => ?_,
    fun i chunk hi page hp => ?_⟩
  · refine (Translations.get?_extend hn).2 (List.mem_append_left _ ?_)
    exact List.mem_map.2 ⟨page, List.mem_filter.2 ⟨hp, by simp [hb]⟩, rfl⟩
  · obtain ⟨entries, hm, hv⟩ := ha.getElem? hi
    obtain ⟨body, answers, hr, hs, hall, rfl⟩ := verdict_eq_ok hv
    obtain ⟨value, hvalue⟩ := Option.isSome_iff_exists.1 (hall page hp)
    refine ⟨body, answers, value, hr, hs, hvalue, ?_⟩
    refine (Translations.get?_extend hn).2
      (List.mem_append_right _ (List.mem_flatten.2 ⟨_, hm, ?_⟩))
    rw [Reply.ofList_map_number (h.chunk_ascending (List.mem_of_getElem? hi))]
    exact List.mem_map.2 ⟨page, hp, by simp [Reply.textIn, hvalue]⟩

end

/-- Every run keeps the law. -/
theorem translate_lawful (job : Job) (pages : List Page) (start : Script) :
    Lawful job pages start (job.translate Script.transport pages start) := by
  unfold translate
  cases hs : Page.sortDistinct pages with
  | error e =>
    obtain ⟨message, rfl⟩ := Page.sortDistinct_invalidInput hs
    exact .refused message hs rfl rfl rfl
  | ok sorted =>
    have hplan := planned_chunks job hs
    have hrange (n : Nat) (total : Nat) :
        (0, total) :: (List.range' 1 n).map (·, total) = (List.range (n + 1)).map (·, total) := by
      rw [List.range_eq_range', List.range'_succ, List.map_cons]
    rcases translateChunks_cases job (job.chunks sorted).length 0 (blankTranslations sorted) start
      (job.chunks sorted) with h | h
    · obtain ⟨before, chunk, later, accepted, e, hc, ha, he, hr, hst, hp⟩ := h
      refine .failed sorted before chunk later accepted e (hc ▸ hplan) ha he hr ?_ ?_
      · have hplan' : Planned job pages sorted ((before ++ [chunk]) ++ later) := by
          simpa using hc ▸ hplan
        exact hst ▸ hplan'.sent start
      · simp only [translateSorted, hp, hrange]
        rw [← hc]
    · obtain ⟨accepted, ha, hr, hst, hp⟩ := h
      refine .completed sorted _ accepted _ hplan ha hr (hplan.complete_extend ha) ?_ ?_
      · have hplan' : Planned job pages sorted (job.chunks sorted ++ []) := by simpa using hplan
        exact hst ▸ hplan'.sent start
      · simp only [translateSorted, hp, hrange]

/-! ## Calls one after the other -/

/-- Calls of one service: each starts with the script that the one before it left. -/
def serve (script : Script) : List (Job × List Page) → List (Run Script)
  | [] => []
  | (job, pages) :: calls =>
    let run := job.translate Script.transport pages script
    run :: serve run.state calls

/-- Each call keeps the law, with the script that the one before it left. -/
inductive LawfulCalls : Script → List (Job × List Page) → List (Run Script) → Prop
  | nil (script : Script) : LawfulCalls script [] []
  | cons {script : Script} {job : Job} {pages : List Page} {run : Run Script}
      {calls : List (Job × List Page)} {runs : List (Run Script)}
      (head : Lawful job pages script run) (tail : LawfulCalls run.state calls runs) :
      LawfulCalls script ((job, pages) :: calls) (run :: runs)

/-- Whatever jobs one service runs, one after the other over one transport, each run is lawful and
begins where the one before left the transport. -/
theorem serve_lawful (script : Script) (calls : List (Job × List Page)) :
    LawfulCalls script calls (serve script calls) := by
  induction calls generalizing script with
  | nil => exact .nil script
  | cons call calls ih =>
    obtain ⟨job, pages⟩ := call
    exact .cons (translate_lawful job pages script) (ih _)

end Job

end Folio
