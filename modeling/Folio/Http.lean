import Folio.Log
import Folio.Text.Utf8
import Folio.Transport

/-!
# HTTP

Documents are posted over HTTP. Whatever keeps an answer from coming, and every status that is no
success, is reported and becomes a transport error.
-/

set_option autoImplicit false

namespace Folio.Http

/-! ### Requests -/

/-- The headers of a request: that of its own, and those that it was given. -/
def headers (post : Post) : List (String × String) :=
  ("Content-Type", "application/json") :: post.headers

/-- The values of a header; the case of its name does not count. -/
def headerValues (post : Post) (name : String) : List String :=
  let small (s : String) : List Char := s.toList.map Char.toLower
  (headers post).filterMap fun header =>
    if small header.1 == small name then some header.2 else none

/-- What is asked for: the path and the query of an address. -/
def target (url : Url) : List Char :=
  let path := url.path.text
  let query := match url.query with
    | some query => '?' :: query
    | none => []
  (if path.isEmpty then ['/'] else path) ++ query

/-- The first line of a request. -/
def requestLine (post : Post) : String :=
  "POST " ++ String.ofList (target post.url) ++ " HTTP/1.1"

/-- The characters of the name of a header. -/
def isNameChar (c : Char) : Bool :=
  c.isAlphanum || "!#$%&'*+-.^_\x60|~".toList.contains c

/-- The characters of the value of a header. -/
def isValueChar (c : Char) : Bool :=
  c = '\t' || 32 ≤ c.toNat && c.toNat ≠ 127

/-- What is wrong with a header. -/
def headerFault? (header : String × String) : Option String :=
  if header.1.isEmpty || !header.1.toList.all isNameChar then some "invalid HTTP header name"
  else if !header.2.toList.all isValueChar then some "failed to parse header value"
  else none

/-- Why a request cannot be sent at all. -/
def requestFault? (post : Post) : Option String :=
  match post.headers.findSome? headerFault? with
  | some fault => some s!"builder error: {fault}"
  | none =>
    if ["http", "https"].contains (String.ofList post.url.scheme) then none
    else some s!"builder error for url ({post.url.text}): URL scheme is not allowed"

/-! ### Answers -/

/-- What became of a request that was sent. -/
inductive Exchange where
  /-- No connection came about, for a reason. -/
  | unreachable (reason : String)
  /-- The connection was closed without an answer. -/
  | dropped
  /-- No answer came in time. -/
  | expired
  /-- An answer came; `complete` says that its body is as long as it was announced. -/
  | answered (status : Nat) (body : List UInt8) (complete : Bool)

/-- Nothing listens at the address. -/
@[match_pattern]
def Exchange.refused : Exchange :=
  .unreachable "tcp connect error: Connection refused (os error 111)"

/-- The phrases that go with the status codes. -/
def reasons : List (Nat × String) := [
  (100, "Continue"), (101, "Switching Protocols"), (102, "Processing"), (200, "OK"),
  (201, "Created"), (202, "Accepted"), (203, "Non Authoritative Information"),
  (204, "No Content"), (205, "Reset Content"), (206, "Partial Content"), (207, "Multi-Status"),
  (208, "Already Reported"), (226, "IM Used"), (300, "Multiple Choices"),
  (301, "Moved Permanently"), (302, "Found"), (303, "See Other"), (304, "Not Modified"),
  (305, "Use Proxy"), (307, "Temporary Redirect"), (308, "Permanent Redirect"),
  (400, "Bad Request"), (401, "Unauthorized"), (402, "Payment Required"), (403, "Forbidden"),
  (404, "Not Found"), (405, "Method Not Allowed"), (406, "Not Acceptable"),
  (407, "Proxy Authentication Required"), (408, "Request Timeout"), (409, "Conflict"),
  (410, "Gone"), (411, "Length Required"), (412, "Precondition Failed"),
  (413, "Payload Too Large"), (414, "URI Too Long"), (415, "Unsupported Media Type"),
  (416, "Range Not Satisfiable"), (417, "Expectation Failed"), (418, "I'm a teapot"),
  (421, "Misdirected Request"), (422, "Unprocessable Entity"), (423, "Locked"),
  (424, "Failed Dependency"), (426, "Upgrade Required"), (428, "Precondition Required"),
  (429, "Too Many Requests"), (431, "Request Header Fields Too Large"),
  (451, "Unavailable For Legal Reasons"), (500, "Internal Server Error"),
  (501, "Not Implemented"), (502, "Bad Gateway"), (503, "Service Unavailable"),
  (504, "Gateway Timeout"), (505, "HTTP Version Not Supported"),
  (506, "Variant Also Negotiates"), (507, "Insufficient Storage"), (508, "Loop Detected"),
  (510, "Not Extended"), (511, "Network Authentication Required")]

/-- A status with its phrase. -/
def statusText (status : Nat) : String :=
  let reason := (reasons.lookup status).getD "<unknown status code>"
  s!"{status} {reason}"

def isSuccess (status : Nat) : Bool :=
  200 ≤ status && status < 300

/-- A failure on the way, which is reported as it is told. -/
def failed (message : String) : Except TranslationError String × Log :=
  (.error (.transport none message), Log.error message)

/-- A failure to send a request, for a reason. -/
def unsent (post : Post) (reason : String) : Except TranslationError String × Log :=
  failed s!"Failed to send request to {post.url.text}: {reason}"

/-- What an exchange comes to. -/
def read (post : Post) : Exchange → Except TranslationError String × Log
  | .unreachable reason =>
    let url := post.url.text
    failed (s!"Failed to connect to {url}: error sending request for url ({url}): " ++
      s!"error trying to connect: {reason}")
  | .dropped =>
    unsent post (s!"error sending request for url ({post.url.text}): " ++
      "connection closed before message completed")
  | .expired => failed s!"Request to {post.url.text} timed out after {post.timeout}s"
  | .answered status body complete =>
    if !complete then
      unsent post ("request or response body error: error reading a body from connection: " ++
        "end of file before message length reached")
    else
      let text := String.ofList (Text.decodeUtf8 body)
      if isSuccess status then (.ok text, [])
      else
        let shown := truncateBody text TranslationError.bodyLimit
        (.error (.ofStatus status text),
          Log.error s!"Provider error ({statusText status}): {shown}")

/-! ### Sending -/

/-- A transport over HTTP, where `exchange` says what becomes of the requests that are sent. -/
def transport {σ : Type} (exchange : Post → σ → Exchange × σ) : Transport σ where
  send post state :=
    let begun := Log.debug s!"POST {post.url.text}"
    match requestFault? post with
    | some fault =>
      let (answer, log) := unsent post fault
      { answer, log := begun ++ log, state }
    | none =>
      let (result, state) := exchange post state
      let (answer, log) := read post result
      { answer, log := begun ++ log, state }

end Folio.Http
