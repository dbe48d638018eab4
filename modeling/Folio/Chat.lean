import Folio.Error
import Folio.Json.Printer
import Folio.Json.Reader
import Folio.Provider

/-!
# Chat requests and answers

How each provider is asked and where its answer holds the assistant's text.
-/

set_option autoImplicit false

namespace Folio.Chat

open Json

/-- A message of a conversation. -/
structure Message where
  role : String
  content : String
deriving DecidableEq, Repr

namespace Message

def system (content : String) : Message := ⟨"system", content⟩

def user (content : String) : Message := ⟨"user", content⟩

def toJson (message : Message) : Value :=
  .ofEntries [("role", .string message.role), ("content", .string message.content)]

end Message

/-- A sampling temperature in a request; what is not finite is left out as `null`. -/
def temperatureValue (temperature : Float32) : Value :=
  if temperature.isFinite then .number (.float (Binary32.toFloat temperature)) else .null

/-- The body of a request that asks for a single JSON object, all at once. -/
def body (provider : Provider) (model : String) (messages : List Message) (temperature : Float32) :
    Value :=
  let messages := Value.array (messages.map Message.toJson)
  match provider with
  | .openAi => .ofEntries [
      ("model", .string model), ("messages", messages),
      ("temperature", temperatureValue temperature), ("stream", .bool false),
      ("response_format", .ofEntries [("type", .string "json_object")])]
  | .ollama => .ofEntries [
      ("model", .string model), ("messages", messages),
      ("options", .ofEntries [("temperature", temperatureValue temperature)]),
      ("format", .string "json"), ("stream", .bool false)]

/-- The headers that a request carries for the sake of a key. -/
def authHeaders (provider : Provider) (apiKey : Option String) : List (String × String) :=
  match provider with
  | .ollama => []
  | .openAi =>
    match apiKey.bind Text.nonBlank? with
    | some key => [("Authorization", "Bearer " ++ key)]
    | none => []

/-- The object that an answer must be. -/
def envelope (answer : String) : Except TranslationError Value :=
  match parse answer with
  | .error e => .error (.protocol s!"Provider response was not valid JSON: {e.message}")
  | .ok (.object members) => .ok (.object members)
  | .ok _ => .error (.protocol "Provider response was not a JSON object")

/-- The text of a message or completion, if it holds one. -/
def contentOf (value : Value) : Option String := do
  (← (← value.member? "message").member? "content").string?

/-- The text in the answer of a provider. Chat completions hold it in their first choice, as the
content of a message or as plain text; failing that, as the text of the whole output. -/
def textOf (provider : Provider) (answer : Value) : Option String :=
  match provider with
  | .ollama => contentOf answer
  | .openAi =>
    let choice := (answer.member? "choices").bind fun choices => choices.array?.bind List.head?
    let chosen := choice.bind fun choice =>
      (contentOf choice).or ((choice.member? "text").bind Value.string?)
    chosen.or ((answer.member? "output_text").bind Value.string?)

/-- The assistant's text in an answer. -/
def extractText (provider : Provider) (answer : String) : Except TranslationError String := do
  match textOf provider (← envelope answer) with
  | some text => .ok text
  | none => .error (.protocol "Translation response did not include assistant content")

/-- An answer around a text, as a provider would give it. -/
def envelopeAround (provider : Provider) (content : String) : Value :=
  let message := Message.toJson ⟨"assistant", content⟩
  match provider with
  | .openAi => .ofEntries [
      ("id", .string "chatcmpl-mock"), ("object", .string "chat.completion"),
      ("choices", .array [.ofEntries [
        ("index", .ofNat 0), ("message", message), ("finish_reason", .string "stop")]])]
  | .ollama => .ofEntries [
      ("model", .string "mock"), ("created_at", .string "2024-01-01T00:00:00Z"),
      ("message", message), ("done", .bool true)]

end Folio.Chat
