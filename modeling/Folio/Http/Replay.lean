import Folio.Http

/-!
# Replayed exchanges

A run that talks over HTTP can be repeated from what came back so far. `Replay.transport` gives each
request the exchange that it had before; the first request without one is kept, and nothing is told
about it until its exchange is known.
-/

set_option autoImplicit false

namespace Folio.Http

/-- The exchanges that are known, in order, and the first request without one. -/
structure Replay where
  known : List Exchange
  waiting : Option Post := none

namespace Replay

/-- Takes the next known exchange. -/
def next (_ : Post) (replay : Replay) : Exchange × Replay :=
  (replay.known.headD .dropped, { replay with known := replay.known.tail })

/-- Sends nothing, and answers with what is known. -/
def transport : Transport Replay where
  send post replay :=
    if (requestFault? post).isNone ∧ replay.known.isEmpty then
      { answer := .error (.timedOut post.url post.timeout)
        log := Log.debug s!"POST {post.url.text}"
        state := { replay with waiting := replay.waiting.or (some post) } }
    else (Http.transport next).send post replay

end Replay

end Folio.Http
