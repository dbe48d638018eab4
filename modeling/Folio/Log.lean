/-!
# Log lines

What the program reports while it works, apart from its results.
-/

set_option autoImplicit false

namespace Folio

/-- How important a line is, the most important first. -/
inductive Level where
  | error
  | warn
  | info
  | debug
  | trace
deriving DecidableEq, Repr

namespace Level

def all : List Level := [.error, .warn, .info, .debug, .trace]

/-- The name of a level in lower case. -/
def key : Level → String
  | .error => "error"
  | .warn => "warn"
  | .info => "info"
  | .debug => "debug"
  | .trace => "trace"

/-- The name of a level in capitals. -/
def name : Level → String
  | .error => "ERROR"
  | .warn => "WARN"
  | .info => "INFO"
  | .debug => "DEBUG"
  | .trace => "TRACE"

/-- How much detail a level asks for. -/
def rank : Level → Nat
  | .error => 1
  | .warn => 2
  | .info => 3
  | .debug => 4
  | .trace => 5

end Level

/-- How the time that a step took is told: in seconds, or by a clock. -/
inductive TimeStyle where
  | seconds
  | clock
deriving DecidableEq, Repr

/-- A line of the log. -/
structure LogLine where
  level : Level
  message : String
  /-- How the time that the step took is told after the message, if it is. -/
  timed : Option TimeStyle := none
deriving DecidableEq, Repr

/-- The log, oldest line first. -/
abbrev Log := List LogLine

namespace Log

def error (message : String) : Log := [{ level := .error, message }]

def warn (message : String) : Log := [{ level := .warn, message }]

def info (message : String) : Log := [{ level := .info, message }]

def debug (message : String) : Log := [{ level := .debug, message }]

/-- A line at level `info` that ends with the time its step took. -/
def timed (message : String) (style : TimeStyle) : Log :=
  [{ level := .info, message, timed := some style }]

/-- The lines that are shown at a level. -/
def upTo (level : Level) (log : Log) : Log :=
  log.filter fun line => line.level.rank ≤ level.rank

end Log

end Folio
