import Folio.Proofs.Json.Compact
import Folio.Proofs.PageOrder
import Folio.Translation

/-!
# What a request says

`Job.Asks job chunk post`: the document `post` asks for the translation of `chunk` in the way of
`job`. Everything in it but the message of the user is the same for all chunks, and that message is
the JSON text of the pages' texts under their numbers. The document that a job sends is of this kind
(`asks_post`).
-/

set_option autoImplicit false

namespace Folio

open Json

namespace Json

/-- In an object made of entries the last entry of a key is found. -/
theorem member?_ofEntries (entries : List (String × Value)) (key : String) :
    (Value.ofEntries entries).member? key = entries.reverse.lookup key :=
  Sorted.lookup_ofList entries key

end Json

/-! ## The message of the user -/

/-- Texts for pages as the entries of an object, under the numbers of the pages. -/
def keyed (text : Page → String) (pages : List Page) : List (String × Value) :=
  pages.map fun page => (page.number.toNat.repr, .string (text page))

section
variable (text : Page → String) {pages : List Page}

theorem nodup_keyed (h : (pages.map Page.number).Nodup) :
    ((keyed text pages).map Prod.fst).Nodup := by
  rw [keyed, List.map_map, List.Nodup, List.pairwise_map]
  refine List.Pairwise.imp (fun hne he => hne ?_) (List.pairwise_map.1 h)
  exact UInt32.toNat_inj.1 (repr_injective he)

theorem plain_keyed (pages : List Page) : Plain 1 (.ofEntries (keyed text pages)) :=
  plain_ofEntries fun e he => by
    obtain ⟨page, -, rfl⟩ := List.mem_map.1 he
    trivial

/-- The members are the texts of the pages and nothing else. -/
theorem mem_ofList_keyed (h : (pages.map Page.number).Nodup) {key : String} {value : Value} :
    (key, value) ∈ Sorted.ofList (keyed text pages) ↔
      ∃ page ∈ pages, key = page.number.toNat.repr ∧ value = .string (text page) := by
  rw [Sorted.mem_ofList (nodup_keyed text h), keyed, List.mem_map]
  simp only [Prod.mk.injEq, eq_comm]

end

/-- The message of the user is read back to the texts of the pages. -/
theorem Prompt.parse_user (pages : List Page) : parse (user pages) = .ok (payload pages) :=
  parse_text (by decide) (plain_keyed Page.text pages)

/-! ## The document -/

namespace Post

/-- The content of the first message of a role. -/
def messageOf? (post : Post) (role : String) : Option String := do
  let messages ← (← post.body.member? "messages").array?
  let message ← messages.find? fun m => (m.member? "role").bind (·.string?) == some role
  (← message.member? "content").string?

/-- The name of the model that is asked. -/
def model? (post : Post) : Option String := do
  (← post.body.member? "model").string?

/-- The sampling temperature, as one of the two kinds of service takes it. -/
def temperature? (post : Post) : Option Value :=
  (post.body.member? "temperature").or
    ((post.body.member? "options").bind (·.member? "temperature"))

end Post

namespace Job

/-- `post` asks for the translation of `chunk` in the way of `job`. -/
structure Asks (job : Job) (chunk : Chunk) (post : Post) : Prop where
  url : post.url = job.endpoint.url
  headers : post.headers = Chat.authHeaders job.provider job.apiKey
  timeout : post.timeout = job.timeout
  model : post.model? = some job.model
  systemPrompt : post.messageOf? "system" = some job.systemPrompt
  temperature : post.temperature? = some (Chat.temperatureValue job.temperature)
  payload : ∃ members, post.userPayload? = some (.object members) ∧ Sorted.Ascending members ∧
    ∀ key value, (key, value) ∈ members ↔
      ∃ page ∈ chunk, key = page.number.toNat.repr ∧ value = .string page.text

theorem body_member? (provider : Provider) (model : String) (messages : List Chat.Message)
    (temperature : Float32) :
    (Chat.body provider model messages temperature).member? "model" = some (.string model) ∧
      (Chat.body provider model messages temperature).member? "messages" =
        some (.array (messages.map Chat.Message.toJson)) ∧
      ((Chat.body provider model messages temperature).member? "temperature").or
        (((Chat.body provider model messages temperature).member? "options").bind
          (·.member? "temperature")) = some (Chat.temperatureValue temperature) := by
  cases provider with
  | openAi => simp [Chat.body, member?_ofEntries, Sorted.lookup_cons_ite]
  | ollama => simp [Chat.body, member?_ofEntries, Sorted.lookup_cons_ite]

theorem role_toJson (message : Chat.Message) :
    (message.toJson.member? "role").bind (·.string?) = some message.role := by
  simp [Chat.Message.toJson, member?_ofEntries, Sorted.lookup_cons_ite, Value.string?]

theorem content_toJson (message : Chat.Message) :
    message.toJson.member? "content" = some (.string message.content) := by
  simp [Chat.Message.toJson, member?_ofEntries]

/-- The messages of a job are found by their roles. -/
theorem find?_messages (job : Job) (chunk : Chunk) :
    let messages := (job.messages chunk).map Chat.Message.toJson
    let isOf (role : String) (m : Json.Value) : Bool :=
      (m.member? "role").bind (·.string?) == some role
    messages.find? (isOf "system") = some (Chat.Message.system job.systemPrompt).toJson ∧
      messages.find? (isOf "user") = some (Chat.Message.user (Prompt.user chunk)).toJson := by
  simp [messages, role_toJson, Chat.Message.system, Chat.Message.user]

theorem userPayload?_post (job : Job) (chunk : Chunk) :
    (job.post chunk).userPayload? = some (Prompt.payload chunk) := by
  obtain ⟨-, hmessages, -⟩ :=
    body_member? job.provider job.model (job.messages chunk) job.temperature
  have hfind := (find?_messages job chunk).2
  simp only [Post.userPayload?, post, hmessages, Value.array?, bind, Option.bind_some, hfind,
    content_toJson]
  simp [Value.string?, Chat.Message.user, Prompt.parse_user, Except.toOption]

theorem asks_post (job : Job) {chunk : Chunk} (h : (chunk.map Page.number).Nodup) :
    job.Asks chunk (job.post chunk) := by
  obtain ⟨hmodel, hmessages, htemperature⟩ :=
    body_member? job.provider job.model (job.messages chunk) job.temperature
  have hfind := (find?_messages job chunk).1
  refine ⟨rfl, rfl, rfl, ?_, ?_, htemperature, _, userPayload?_post job chunk,
    Sorted.ascending_ofList _, fun key value => mem_ofList_keyed Page.text h⟩
  · simp [Post.model?, post, hmodel, Value.string?]
  · simp only [Post.messageOf?, post, hmessages, Value.array?, bind, Option.bind_some, hfind,
      content_toJson]
    rfl

end Job

end Folio
