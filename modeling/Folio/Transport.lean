import Folio.Chat
import Folio.Url

/-!
# Transports

A transport sends a JSON document to an address and brings back the text of the answer, or the
reason why there is none. It is a machine with a state; the scripted one answers with given replies
in order and keeps what was sent.
-/

set_option autoImplicit false

namespace Folio

/-- A JSON document on its way to an address. -/
structure Post where
  url : Url
  headers : List (String × String)
  body : Json.Value
  /-- How long to wait for the answer, in seconds. -/
  timeout : Nat

namespace Post

/-- The value of a header; the case of its name does not count. -/
def header? (post : Post) (name : String) : Option String :=
  let small (s : String) : List Char := s.toList.map Char.toLower
  (post.headers.find? fun header => small header.1 == small name).map Prod.snd

/-- The content of the first message of the user, read as JSON. -/
def userPayload? (post : Post) : Option Json.Value := do
  let messages ← (← post.body.member? "messages").array?
  let message ← messages.find? fun m => (m.member? "role").bind (·.string?) == some "user"
  (Json.parse (← (← message.member? "content").string?)).toOption

end Post

/-- What sending a document came to. -/
structure Delivery (σ : Type) where
  answer : Except TranslationError String
  log : Log
  state : σ

/-- A way to send documents. -/
structure Transport (σ : Type) where
  send : Post → σ → Delivery σ

/-- The error for an answer that did not come in time. -/
def TranslationError.timedOut (url : Url) (seconds : Nat) : TranslationError :=
  .transport none s!"Request to {url.text} timed out after {seconds}s"

/-- A reply in a script. -/
inductive ScriptedReply where
  | body (text : String)
  | status (code : Nat) (body : String)
  | timeout
deriving DecidableEq, Repr

/-- The replies still to be given and the documents that were sent, oldest first. -/
structure Script where
  replies : List ScriptedReply
  sent : List Post := []

namespace Script

/-- What a scripted reply to a document comes to. -/
def answer (post : Post) : Option ScriptedReply → Except TranslationError String
  | some (.body text) => .ok text
  | some (.status code body) => .error (.ofStatus code body)
  | some .timeout => .error (.timedOut post.url post.timeout)
  | none => .error (.transport none "Mock transport has no scripted reply left")

/-- Answers with the replies of the script, one for each document. -/
def transport : Transport Script where
  send post script :=
    { answer := answer post script.replies.head?
      log := []
      state := { replies := script.replies.tail, sent := script.sent ++ [post] } }

end Script

end Folio
