import Folio.Http

/-!
# HTTP messages

The bytes of requests, and what the bytes that come back say. A connection carries one request, so
an answer ends where its length says, with its last chunk, or with the connection.
-/

set_option autoImplicit false

namespace Folio.Http

/-! ### Requests -/

/-- The port that an address leads to. -/
def port (url : Url) : Nat :=
  ((url.authority.bind (·.port)).or (Url.defaultPort? url.scheme)).getD 80

/-- The host and the port as they are written in an address. -/
def hostText (url : Url) : List Char :=
  match url.authority with
  | some authority => { authority with username := [], password := [] : Url.Authority }.text
  | none => []

/-- The bytes of a request. -/
def requestBytes (post : Post) : ByteArray :=
  let body := post.body.text.toUTF8
  let head := [("Host", String.ofList (hostText post.url)), ("Accept", "*/*"),
    ("Content-Length", toString body.size), ("Connection", "close")]
  let lines := requestLine post :: (headers post ++ head).map fun (name, value) =>
    s!"{name}: {value}"
  ("\r\n".intercalate lines ++ "\r\n\r\n").toUTF8 ++ body

/-! ### Answers -/

/-- The first line of bytes without its end, and what follows it; none if no line ends. -/
def line? : List UInt8 → Option (List UInt8 × List UInt8)
  | [] => none
  | 13 :: 10 :: rest => some ([], rest)
  | byte :: rest => (line? rest).map fun (line, after) => (byte :: line, after)

theorem length_lt_of_line? {bytes line rest : List UInt8} (h : line? bytes = some (line, rest)) :
    rest.length < bytes.length := by
  fun_induction line? bytes generalizing line rest with
  | case1 => simp at h
  | case2 after =>
    simp only [Option.some.injEq, Prod.mk.injEq] at h
    rw [← h.2]
    simp only [List.length_cons]
    omega
  | case3 byte after _ ih =>
    obtain ⟨⟨line', rest'⟩, found, same⟩ := Option.map_eq_some_iff.1 h
    simp only [Prod.mk.injEq] at same
    have := ih found
    rw [← same.2]
    simp only [List.length_cons]
    omega

/-- The lines up to an empty one, and what follows that; none if no empty line comes. -/
def lines? (bytes : List UInt8) : Option (List (List Char) × List UInt8) :=
  match h : line? bytes with
  | none => none
  | some (line, rest) =>
    have := length_lt_of_line? h
    if line.isEmpty then some ([], rest)
    else (lines? rest).map fun (lines, after) => (Text.decodeUtf8 line :: lines, after)
termination_by bytes.length

/-- The status that the first line of an answer tells. -/
def status? (line : List Char) : Option Nat :=
  match Text.splitWhere (· == ' ') line with
  | version :: code :: _ =>
    if "HTTP/1.".toList.isPrefixOf version && code.length == 3 then Url.numeral? 10 code else none
  | _ => none

/-- A header in small letters, and its value. -/
def header? (line : List Char) : Option (List Char × List Char) :=
  match line.dropWhile (· != ':') with
  | _ :: value => some ((line.takeWhile (· != ':')).map Char.toLower, Text.trim value)
  | [] => none

/-- The bytes of chunks, each after a line with its size, up to one of size zero; the second part
says whether that one came. -/
def chunks (bytes : List UInt8) : List UInt8 × Bool :=
  match h : line? bytes with
  | none => ([], false)
  | some (line, rest) =>
    have := length_lt_of_line? h
    let digits := (Text.decodeUtf8 line).takeWhile fun c => c != ';' && c != ' '
    match Url.numeral? 16 digits with
    | none => ([], false)
    | some 0 => ([], true)
    | some size =>
      let (later, complete) := chunks (rest.drop (size + 2))
      (rest.take size ++ later, complete && size + 2 ≤ rest.length)
termination_by bytes.length
decreasing_by
  simp only [List.length_drop]
  omega

/-- The body of an answer, and whether all of it came. -/
def bodyOf (status : Nat) (headers : List (List Char × List Char)) (bytes : List UInt8) :
    List UInt8 × Bool :=
  if status = 204 ∨ status = 304 then ([], true)
  else if headers.lookup "transfer-encoding".toList = some "chunked".toList then chunks bytes
  else
    match (headers.lookup "content-length".toList).bind (Url.numeral? 10) with
    | some length => (bytes.take length, length ≤ bytes.length)
    | none => (bytes, true)

/-- What the bytes that came over a connection are as an answer. Interim answers, with a status
below 200, are passed over. -/
def exchangeOf : Nat → List UInt8 → Exchange
  | 0, _ => .dropped
  | fuel + 1, bytes =>
    match lines? bytes with
    | some (first :: lines, rest) =>
      match status? first with
      | none => .dropped
      | some status =>
        if status < 200 then exchangeOf fuel rest
        else
          let (body, complete) := bodyOf status (lines.filterMap header?) rest
          .answered status body complete
    | _ => .dropped

/-- The answer that the bytes of a connection are. -/
def Exchange.ofBytes (bytes : List UInt8) : Exchange :=
  exchangeOf (bytes.length + 1) bytes

end Folio.Http
