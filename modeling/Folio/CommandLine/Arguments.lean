/-!
# Arguments

Arguments are options, which have a long name and may have a letter, and places, which are told by
their order. A value stands behind its option, or in the same argument; what begins with a hyphen is
no value unless it does. After two hyphens only places follow.
-/

set_option autoImplicit false

namespace Folio.CommandLine

/-- An option. -/
structure Flag where
  long : String
  letter : Option Char := none
  takesValue : Bool := true
  /-- Whether a value is one that the option takes. -/
  accepts : String → Bool := fun _ => true

/-- What arguments can be. -/
structure Grammar where
  flags : List Flag
  /-- Which values the places take, in order. -/
  places : List (String → Bool)

/-- What was read: options with their values, and places, both in order. -/
structure Arguments where
  options : List (String × String) := []
  places : List String := []

namespace Arguments

/-- The value of an option. -/
def value? (arguments : Arguments) (long : String) : Option String :=
  arguments.options.lookup long

def isSet (arguments : Arguments) (long : String) : Bool :=
  (arguments.value? long).isSome

end Arguments

/-- What reading arguments comes to. -/
inductive Outcome (α : Type) where
  /-- The arguments are wrong. -/
  | wrong
  /-- The arguments ask for help. -/
  | help
  | read (value : α)

/-- Whether an argument looks like options: it begins with a hyphen and does not end there. -/
def looksLikeFlags : List Char → Bool
  | '-' :: _ :: _ => true
  | _ => false

namespace Grammar

/-- Adds an option, unless its value is wrong or it was given before. -/
def record (flag : Flag) (value : List Char) (arguments : Arguments) : Option Arguments :=
  let value := String.ofList value
  if flag.accepts value && !arguments.isSet flag.long then
    some { arguments with options := arguments.options ++ [(flag.long, value)] }
  else none

/-- Adds a place, unless there are too many or its value is wrong. -/
def recordPlace (grammar : Grammar) (value : List Char) (arguments : Arguments) :
    Option Arguments :=
  match grammar.places[arguments.places.length]? with
  | some accepts =>
    let value := String.ofList value
    if accepts value then some { arguments with places := arguments.places ++ [value] } else none
  | none => none

/-- What options in one argument come to. -/
inductive Step where
  | wrong
  | help
  /-- The next argument is the value of an option. -/
  | awaiting (flag : Flag) (arguments : Arguments)
  | done (arguments : Arguments)

def Step.ofOption : Option Arguments → Step
  | some arguments => .done arguments
  | none => .wrong

/-- An option with a long name, and the value behind an equals sign if there is one. -/
def readLong (grammar : Grammar) (text : List Char) (arguments : Arguments) : Step :=
  let name := String.ofList (text.takeWhile (· ≠ '='))
  let value? := match text.dropWhile (· ≠ '=') with
    | _ :: value => some value
    | [] => none
  match grammar.flags.find? fun flag => flag.long = name with
  | none => if name = "help" ∧ value? = none then .help else .wrong
  | some flag =>
    match flag.takesValue, value? with
    | true, some value => .ofOption (record flag value arguments)
    | true, none => .awaiting flag arguments
    | false, some _ => .wrong
    | false, none => .ofOption (record flag [] arguments)

/-- Options by their letters; the letters behind one that takes a value are that value. -/
def readLetters (grammar : Grammar) : List Char → Arguments → Step
  | [], arguments => .done arguments
  | letter :: rest, arguments =>
    match grammar.flags.find? fun flag => flag.letter = some letter with
    | none => if letter = 'h' then .help else .wrong
    | some flag =>
      if flag.takesValue then
        match rest with
        | [] => .awaiting flag arguments
        | '=' :: value => .ofOption (record flag value arguments)
        | value => .ofOption (record flag value arguments)
      else
        match record flag [] arguments with
        | some arguments => grammar.readLetters rest arguments
        | none => .wrong

/-- Reads arguments behind two hyphens. -/
def readPlaces (grammar : Grammar) (arguments : Arguments) : List String → Outcome Arguments
  | [] => .read arguments
  | text :: rest =>
    match grammar.recordPlace text.toList arguments with
    | some arguments => grammar.readPlaces arguments rest
    | none => .wrong

/-- Reads arguments behind those that were read; `awaiting` is an option that lacks its value. -/
def readFrom (grammar : Grammar) (arguments : Arguments) :
    Option Flag → List String → Outcome Arguments
  | none, [] => .read arguments
  | some _, [] => .wrong
  | awaiting, text :: rest =>
    let next (step : Step) : Outcome Arguments :=
      match step with
      | .wrong => .wrong
      | .help => .help
      | .awaiting flag arguments => grammar.readFrom arguments (some flag) rest
      | .done arguments => grammar.readFrom arguments none rest
    match awaiting, text.toList with
    | none, ['-', '-'] => grammar.readPlaces arguments rest
    | none, '-' :: '-' :: long => next (grammar.readLong long arguments)
    | none, chars =>
      if looksLikeFlags chars then next (grammar.readLetters (chars.drop 1) arguments)
      else next (.ofOption (grammar.recordPlace chars arguments))
    | some flag, chars =>
      if looksLikeFlags chars then .wrong else next (.ofOption (record flag chars arguments))

/-- Reads arguments. -/
def read (grammar : Grammar) (arguments : List String) : Outcome Arguments :=
  grammar.readFrom {} none arguments

end Grammar

end Folio.CommandLine
